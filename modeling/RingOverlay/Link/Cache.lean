import RingOverlay.Address.Peer

/-!
# Link — the cache of connections

The connections that one process keeps, each under the address its peer advertises.  Entries are
never evicted: one stays until it is removed or replaced, even after its connection has closed.
-/

namespace RingOverlay

/-- Connections under their peers' addresses, each address at most once. -/
structure Cache (α : Type) where
  slots : List (PeerAddress × α)
  deriving DecidableEq, Repr

namespace Cache

variable {α : Type}

/-- The cache that holds nothing. -/
def empty : Cache α := ⟨[]⟩

/-- How many connections the cache holds. -/
def size (c : Cache α) : Nat := c.slots.length

/-- The connection under `address`, if there is one. -/
def get? (c : Cache α) (address : PeerAddress) : Option α :=
  (c.slots.find? (·.1 == address)).map Prod.snd

/-- Whether there is a connection under `address`. -/
def contains (c : Cache α) (address : PeerAddress) : Bool := (c.get? address).isSome

/-- The cache without the connection under `address`. -/
def erase (c : Cache α) (address : PeerAddress) : Cache α :=
  ⟨c.slots.filter (·.1 != address)⟩

/-- The cache with `connection` under `address`, in place of the one that was there. -/
def put (c : Cache α) (address : PeerAddress) (connection : α) : Cache α :=
  ⟨(c.erase address).slots ++ [(address, connection)]⟩

end Cache

end RingOverlay
