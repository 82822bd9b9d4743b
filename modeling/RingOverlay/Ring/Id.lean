/-!
# Ring — identifiers

Nodes sit on a ring of `ringSize` identifiers.  A `NodeId` is a position on that ring; integers
that come from elsewhere become one through `NodeId.ofInt`, which refuses what is off the ring.
-/

namespace RingOverlay

/-- The number of identifiers on the ring. -/
def ringSize : Nat := 128

/-- A node's position on the identifier ring. -/
abbrev NodeId := Fin ringSize

/-- The refusal of an integer that is no position on the ring. -/
structure OffRing where
  value : Int
  deriving DecidableEq, Repr

namespace OffRing

/-- The refusal in words. -/
def message (e : OffRing) : String :=
  s!"{e.value} is not an identifier on the ring of size {ringSize}"

end OffRing

namespace NodeId

/-- Numerals stand for identifiers, counted around the ring. -/
instance (n : Nat) : OfNat NodeId n := ⟨⟨n % ringSize, Nat.mod_lt n (by decide)⟩⟩

/-- The identifier at position `n`, if `n` lies on the ring. -/
def ofNat? (n : Nat) : Option NodeId :=
  if h : n < ringSize then some ⟨n, h⟩ else none

/-- The identifier `n`, or the refusal of an integer off the ring. -/
def ofInt (n : Int) : Except OffRing NodeId :=
  if h : 0 ≤ n ∧ n < ringSize then .ok ⟨n.toNat, by omega⟩ else .error ⟨n⟩

/-- The value that stands for `id` in the signed status fields of messages. -/
def status (id : NodeId) : Int32 := Int32.ofNat id.val

/-- The decimal text of an identifier. -/
def text (id : NodeId) : String := toString id.val

/-- Every identifier, in ascending order. -/
def all : List NodeId := List.finRange ringSize

end NodeId

end RingOverlay
