import RingOverlay.Message.Basic
import RingOverlay.Bytes.Read

/-!
# Message — decoding

A payload is read field by field in the order in which it is written, and the first fault decides
the error: a field that is cut short before one whose value is refused, an entry that repeats an
identifier as soon as it has been read.  A payload with bytes left over after its last field is
refused last.
-/

namespace RingOverlay

/-- What is wrong with a payload. -/
inductive DecodeError where
  | unknownTag (tag : Int32)
  | truncated
  | trailingBytes (count : Nat)
  | invalidUtf8
  | negativeLength (length : Int32)
  | negativeCount (count : Int32)
  | invalidNodeId (id : Int32)
  | invalidPort (port : Int32)
  | routingTable (refusal : DuplicateEntry)
  deriving DecidableEq, Repr

namespace DecodeError

/-- The error in words. -/
def message : DecodeError → String
  | unknownTag tag => s!"Unknown message tag {tag.toInt}"
  | truncated => "The payload ended before the message was complete"
  | trailingBytes count => s!"{count} bytes were left over after the message"
  | invalidUtf8 => "A string field is not valid UTF-8"
  | negativeLength length => s!"A length field was negative: {length.toInt}"
  | negativeCount count => s!"A count field was negative: {count.toInt}"
  | invalidNodeId id => s!"{id.toInt} is not a valid node ID"
  | invalidPort port => s!"{port.toInt} is not a valid port"
  | routingTable refusal => s!"The routing table is malformed: {refusal.message}"

end DecodeError

/-- Takes a value off the front of a payload, or says what is wrong. -/
abbrev Decoder (α : Type) := StateT (List UInt8) (Except DecodeError) α

namespace Decoder

/-! ### Fields -/

/-- A read that must not run out of bytes. -/
def ofRead {α : Type} (r : Bytes.Read α) : Decoder α := fun bs =>
  match r bs with
  | (some a, rest) => .ok (a, rest)
  | (none, _) => .error .truncated

/-- A signed integer of four bytes. -/
def i32 : Decoder Int32 := ofRead .i32

/-- A signed integer of eight bytes. -/
def i64 : Decoder Int64 := ofRead .i64

/-- A length, which must not be negative. -/
def length : Decoder Nat := do
  let n ← i32
  if 0 ≤ n.toInt then pure n.toInt.toNat else throw (.negativeLength n)

/-- A packet count, which must not be negative. -/
def count : Decoder UInt32 := do
  let n ← i32
  if 0 ≤ n.toInt then pure n.toUInt32 else throw (.negativeCount n)

/-- An identifier on the ring. -/
def id : Decoder NodeId := do
  let n ← i32
  match NodeId.ofInt n.toInt with
  | .ok id => pure id
  | .error _ => throw (.invalidNodeId n)

/-- `n` values, one after the other. -/
def times {α : Type} (d : Decoder α) : Nat → Decoder (List α)
  | 0 => pure []
  | n + 1 => do
    let a ← d
    let as ← times d n
    pure (a :: as)

/-- A list of identifiers. -/
def ids : Decoder (List NodeId) := do
  let n ← length
  times id n

/-- A string. -/
def string : Decoder String := do
  let n ← length
  let bytes ← ofRead (.take n)
  match String.fromUTF8? bytes.toByteArray with
  | some s => pure s
  | none => throw .invalidUtf8

/-- A peer address. -/
def address : Decoder PeerAddress := do
  let host ← string
  let port ← i32
  if 0 ≤ port.toInt ∧ port.toInt < UInt16.size then
    pure ⟨host, UInt16.ofNat port.toInt.toNat⟩
  else throw (.invalidPort port)

/-- `n` entries, pushed onto a finger table as they are read. -/
def entries : Nat → FingerTable → Decoder FingerTable
  | 0, table => pure table
  | n + 1, table => do
    let id ← Decoder.id
    let address ← Decoder.address
    match table.push ⟨id, address⟩ with
    | .ok table' => entries n table'
    | .error refusal => throw (.routingTable refusal)

/-! ### Messages -/

/-- The fields of a message of a kind. -/
def fields : Kind → Decoder Message
  | .nodeRegisters => do
    let a ← address
    pure (.nodeRegisters a)
  | .registrationStatus => do
    let status ← i32
    let info ← string
    pure (.registrationStatus status info)
  | .nodeDeregisters => do
    let a ← address
    let i ← id
    pure (.nodeDeregisters a i)
  | .deregistrationStatus => do
    let status ← i32
    let info ← string
    pure (.deregistrationStatus status info)
  | .nodeManifest => do
    let n ← length
    let table ← entries n .empty
    let nodeIds ← ids
    pure (.nodeManifest table nodeIds)
  | .overlaySetupStatus => do
    let status ← i32
    let info ← string
    pure (.overlaySetupStatus status info)
  | .taskInitiate => do
    let n ← count
    pure (.taskInitiate n)
  | .dataPacket => do
    let dst ← id
    let src ← id
    let payload ← i32
    let trace ← ids
    pure (.dataPacket ⟨dst, src, payload, trace⟩)
  | .taskFinished => do
    let a ← address
    let i ← id
    pure (.taskFinished a i)
  | .trafficSummaryRequest => pure .trafficSummaryRequest
  | .trafficSummaryReport => do
    let i ← id
    let sent ← count
    let relayed ← count
    let sentSum ← i64
    let received ← count
    let receivedSum ← i64
    pure (.trafficSummaryReport ⟨i, sent, relayed, sentSum, received, receivedSum⟩)

/-- A message: its tag and its fields. -/
def message : Decoder Message := do
  let tag ← i32
  match Kind.ofTag? tag with
  | some kind => fields kind
  | none => throw (.unknownTag tag)

/-- Reads a value that has to take up the whole payload. -/
def run {α : Type} (d : Decoder α) (payload : List UInt8) : Except DecodeError α :=
  match d payload with
  | .error e => .error e
  | .ok (a, []) => .ok a
  | .ok (_, rest) => .error (.trailingBytes rest.length)

end Decoder

/-- The message that a payload encodes. -/
def Message.decode (payload : List UInt8) : Except DecodeError Message :=
  Decoder.message.run payload

end RingOverlay
