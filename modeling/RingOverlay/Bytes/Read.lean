import RingOverlay.Bytes.BigEndian

/-!
# Bytes — reading from the front

A read takes bytes off the front and interprets them.  It fails if fewer are left than it needs,
and has then still consumed what was left: after a failed read, every read of positive width fails.
-/

namespace RingOverlay.Bytes

/-- A read: what it found, if there were bytes enough, and the bytes after it. -/
abbrev Read (α : Type) := List UInt8 → Option α × List UInt8

namespace Read

/-- Exactly `n` bytes. -/
def take (n : Nat) : Read (List UInt8) := fun bs =>
  let front := bs.take n
  if front.length = n then (some front, bs.drop n) else (none, [])

/-- What a read found, interpreted. -/
def map {α β : Type} (f : α → β) (r : Read α) : Read β := fun bs =>
  ((r bs).1.map f, (r bs).2)

/-- One byte. -/
def u8 : Read UInt8 := (take 1).map fun bs => UInt8.ofNat (value bs)

/-- An unsigned integer of four bytes. -/
def u32 : Read UInt32 := (take 4).map toUInt32

/-- A signed integer of four bytes. -/
def i32 : Read Int32 := (take 4).map toInt32

/-- A signed integer of eight bytes. -/
def i64 : Read Int64 := (take 8).map toInt64

end Read

/-! ### Sequences of reads -/

/-- The shapes a read can have. -/
inductive Shape where
  | u8
  | u32
  | i32
  | i64
  | bytes (n : Nat)
  deriving DecidableEq, Repr

/-- What a read of some shape finds. -/
inductive Item where
  | u8 (n : UInt8)
  | u32 (n : UInt32)
  | i32 (n : Int32)
  | i64 (n : Int64)
  | bytes (bs : List UInt8)
  deriving DecidableEq, Repr

namespace Shape

/-- How many bytes a shape takes. -/
def width : Shape → Nat
  | u8 => 1
  | u32 => 4
  | i32 => 4
  | i64 => 8
  | bytes n => n

/-- The read of a shape. -/
def read : Shape → Read Item
  | u8 => Read.u8.map .u8
  | u32 => Read.u32.map .u32
  | i32 => Read.i32.map .i32
  | i64 => Read.i64.map .i64
  | bytes n => (Read.take n).map .bytes

/-- Reads one shape after the other; the results, and the bytes left at the end. -/
def readAll : List Shape → List UInt8 → List (Option Item) × List UInt8
  | [], bs => ([], bs)
  | shape :: shapes, bs =>
    let (item, rest) := shape.read bs
    let (items, left) := readAll shapes rest
    (item :: items, left)

end Shape

namespace Item

/-- The bytes that an item was read from. -/
def encode : Item → List UInt8
  | u8 n => [n]
  | u32 n => ofUInt32 n
  | i32 n => ofInt32 n
  | i64 n => ofInt64 n
  | bytes bs => bs

end Item

end RingOverlay.Bytes
