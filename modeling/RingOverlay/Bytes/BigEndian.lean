/-!
# Bytes — big-endian integers

Every integer of the wire format has a fixed width and is written most significant byte first,
negative ones in two's complement.  `encodeNat` writes the low bytes of a number, `value` reads
bytes back; the fixed-width types go through them.
-/

namespace RingOverlay.Bytes

/-- The low `width` bytes of `n`, most significant first. -/
def encodeNat : (width : Nat) → Nat → List UInt8
  | 0, _ => []
  | width + 1, n => UInt8.ofNat (n / 256 ^ width) :: encodeNat width n

/-- The number that bytes spell, most significant first. -/
def value (bs : List UInt8) : Nat := bs.foldl (fun n b => 256 * n + b.toNat) 0

/-! ### Fixed-width integers -/

/-- Four bytes of an unsigned integer. -/
def ofUInt32 (n : UInt32) : List UInt8 := encodeNat 4 n.toNat

/-- Four bytes of a signed integer. -/
def ofInt32 (n : Int32) : List UInt8 := ofUInt32 n.toUInt32

/-- Eight bytes of a signed integer. -/
def ofInt64 (n : Int64) : List UInt8 := encodeNat 8 n.toUInt64.toNat

/-- The unsigned integer that four bytes spell. -/
def toUInt32 (bs : List UInt8) : UInt32 := UInt32.ofNat (value bs)

/-- The signed integer that four bytes spell. -/
def toInt32 (bs : List UInt8) : Int32 := (toUInt32 bs).toInt32

/-- The signed integer that eight bytes spell. -/
def toInt64 (bs : List UInt8) : Int64 := (UInt64.ofNat (value bs)).toInt64

end RingOverlay.Bytes
