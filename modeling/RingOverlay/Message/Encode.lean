import RingOverlay.Message.Basic
import RingOverlay.Bytes.BigEndian

/-!
# Message — encoding

A payload is the tag of the message's kind followed by its fields.  A string is its length in bytes
and its UTF-8 bytes; a list is its length and its elements.  A frame is a payload with its length in
front.
-/

namespace RingOverlay

/-! ### Fields -/

namespace Payload

/-- A length: of a string in bytes, or of a list in elements. -/
def ofLength (n : Nat) : List UInt8 := Bytes.encodeNat 4 n

/-- A packet count, cut to what the wire carries. -/
def ofCount (n : UInt32) : List UInt8 := Bytes.ofUInt32 (Message.clampCount n)

/-- An identifier. -/
def ofId (id : NodeId) : List UInt8 := Bytes.ofInt32 id.status

/-- A list of identifiers. -/
def ofIds (ids : List NodeId) : List UInt8 := ofLength ids.length ++ ids.flatMap ofId

/-- A string. -/
def ofString (s : String) : List UInt8 :=
  let bytes := s.toUTF8.data.toList
  ofLength bytes.length ++ bytes

/-- A peer address: the host, and the port as a 32-bit integer. -/
def ofAddress (a : PeerAddress) : List UInt8 :=
  ofString a.host ++ Bytes.encodeNat 4 a.port.toNat

/-- An entry of a finger table. -/
def ofEntry (e : Entry) : List UInt8 := ofId e.id ++ ofAddress e.address

end Payload

namespace Message

open Payload

/-- The fields of a message, in order. -/
def fields : Message → List UInt8
  | nodeRegisters address => ofAddress address
  | registrationStatus status info => Bytes.ofInt32 status ++ ofString info
  | nodeDeregisters address id => ofAddress address ++ ofId id
  | deregistrationStatus status info => Bytes.ofInt32 status ++ ofString info
  | nodeManifest table nodeIds =>
    ofLength table.size ++ table.entries.flatMap ofEntry ++ ofIds nodeIds
  | overlaySetupStatus status info => Bytes.ofInt32 status ++ ofString info
  | taskInitiate count => ofCount count
  | dataPacket p => ofId p.dst ++ ofId p.src ++ Bytes.ofInt32 p.payload ++ ofIds p.trace
  | taskFinished address id => ofAddress address ++ ofId id
  | trafficSummaryRequest => []
  | trafficSummaryReport s =>
    ofId s.id ++ ofCount s.sent ++ ofCount s.relayed ++ Bytes.ofInt64 s.sentSum ++
      ofCount s.received ++ Bytes.ofInt64 s.receivedSum

/-- The payload of a message. -/
def encode (m : Message) : List UInt8 := Bytes.ofInt32 m.kind.tag ++ m.fields

/-- The frame of a message: its payload, with the payload's length in front. -/
def frame (m : Message) : List UInt8 := Bytes.encodeNat 4 m.encode.length ++ m.encode

end Message

end RingOverlay
