import RingOverlay.Ring.Draws
import RingOverlay.Finger.Table

/-!
# Registry — membership

The registered nodes, ascending by identifier.  Identifiers and addresses are each unique.  A node
that registers is given an identifier drawn from those still free; what it claims is checked against
where its connection was observed to come from, and a refusal says why.
-/

namespace RingOverlay

/-- The registered nodes of a ring that hands out the identifiers below `capacity`. -/
structure Membership where
  capacity : Nat
  members : List Entry
  deriving DecidableEq, Repr

/-- Why a request to join or to leave was refused. -/
inductive Refusal where
  | ringFull (capacity : Nat)
  | addressTaken (address : PeerAddress)
  | hostMismatch (claimed : PeerAddress) (observed : Ip)
  | notRegistered (id : NodeId)
  | addressMismatch (id : NodeId) (registered claimed : PeerAddress)
  deriving DecidableEq, Repr

namespace Refusal

/-- The refusal in words. -/
def message : Refusal → String
  | ringFull capacity => s!"There is no room left on the ring of {capacity} identifiers"
  | addressTaken address => s!"A node is already registered at {address.text}"
  | hostMismatch claimed observed =>
    s!"The request claims {claimed.text} but came from {observed.text}"
  | notRegistered id => s!"Node {id.text} is not registered"
  | addressMismatch id registered claimed =>
    s!"Node {id.text} is registered at {registered.text}, not {claimed.text}"

end Refusal

namespace Membership

/-- Nobody is registered yet. -/
def empty (capacity : Nat) : Membership := ⟨capacity, []⟩

/-- How many nodes are registered. -/
def size (m : Membership) : Nat := m.members.length

/-- The members' identifiers, in ascending order. -/
def ids (m : Membership) : List NodeId := m.members.map Entry.id

/-- The member with identifier `id`, if there is one. -/
def find? (m : Membership) (id : NodeId) : Option Entry := m.members.find? (·.id == id)

/-- The address that `id` is registered under. -/
def get? (m : Membership) (id : NodeId) : Option PeerAddress := (m.find? id).map Entry.address

/-- Whether some node is registered at `address`. -/
def hasAddress (m : Membership) (address : PeerAddress) : Bool :=
  m.members.any (·.address == address)

/-- Whether nobody has the identifier `id`. -/
def isFree (m : Membership) (id : NodeId) : Bool := (m.find? id).isNone

/-- `members` with `e` in its place. -/
def insert (e : Entry) : List Entry → List Entry
  | [] => [e]
  | x :: xs => if e.id < x.id then e :: x :: xs else x :: insert e xs

/-- `members` without the identifier `id`. -/
def erase (id : NodeId) (members : List Entry) : List Entry := members.filter (·.id != id)

/-- Admits a node that claims to listen on `claimed`, under a free identifier that is drawn.  A ring
on which no draw is ever free has no room left either. -/
def register (m : Membership) (claimed : PeerAddress) (observed : Ip) (draws : Draws) :
    Except Refusal (NodeId × Membership × Draws) :=
  if m.capacity ≤ m.size then .error (.ringFull m.capacity)
  else if m.hasAddress claimed then .error (.addressTaken claimed)
  else if !claimed.matchesHost observed then .error (.hostMismatch claimed observed)
  else
    match draws.pick m.capacity m.isFree with
    | none => .error (.ringFull m.capacity)
    | some (id, draws') => .ok (id, { m with members := insert ⟨id, claimed⟩ m.members }, draws')

/-- Removes the node `id`, which has to be registered at `claimed` and to ask from that host. -/
def deregister (m : Membership) (claimed : PeerAddress) (id : NodeId) (observed : Ip) :
    Except Refusal (PeerAddress × Membership) :=
  match m.get? id with
  | none => .error (.notRegistered id)
  | some registered =>
    if registered ≠ claimed then .error (.addressMismatch id registered claimed)
    else if !claimed.matchesHost observed then .error (.hostMismatch claimed observed)
    else .ok (registered, { m with members := erase id m.members })

/-- Removes whichever node is registered at `address`, and says which. -/
def removeAddress (m : Membership) (address : PeerAddress) : Option NodeId × Membership :=
  match m.members.find? (·.address == address) with
  | none => (none, m)
  | some e => (some e.id, { m with members := erase e.id m.members })

end Membership

end RingOverlay
