import RingOverlay.Finger.Table

/-!
# Finger — laying out an overlay

Over a membership of `n` nodes, entry `e` of the table of the node at position `i` is the node at
position `(i + 2 ^ e) mod n`.  A lone node has an empty table.  Otherwise the offsets `2 ^ e mod n`
must be distinct and none of them zero, or a table would repeat a node or hold its own: such a size
is refused.  There are only `n` positions, so the first `n` offsets decide.
-/

namespace RingOverlay

/-- Why no tables of the requested size can be laid out. -/
inductive LayoutError where
  | noNodes
  | emptyTable
  | selfEntry (size nodes : Nat)
  | repeatedEntry (size nodes : Nat)
  | duplicate (refusal : DuplicateEntry)
  deriving DecidableEq, Repr

namespace LayoutError

/-- The error in words. -/
def message : LayoutError → String
  | noNodes => "There are no registered nodes to build an overlay from"
  | emptyTable => "Routing tables must have at least one entry"
  | selfEntry size nodes =>
    s!"A routing table of size {size} over {nodes} nodes would contain its own node"
  | repeatedEntry size nodes =>
    s!"A routing table of size {size} over {nodes} nodes would repeat an entry"
  | duplicate refusal => refusal.message

end LayoutError

namespace Layout

/-- `size` offsets, each of which is twice the one before it modulo `nodes`. -/
def offsetsFrom (nodes : Nat) : (size : Nat) → (offset : Nat) → List Nat
  | 0, _ => []
  | size + 1, offset => offset :: offsetsFrom nodes size (offset * 2 % nodes)

/-- The offsets of the first `size` entries: the powers of two modulo `nodes`. -/
def offsets (nodes size : Nat) : List Nat := offsetsFrom nodes size (1 % nodes)

/-- What is wrong with a list of offsets, given those `seen` before it. -/
inductive Clash where
  | own
  | again
  deriving DecidableEq, Repr

/-- The first offset that is zero or was seen before. -/
def clash? (seen : List Nat) : List Nat → Option Clash
  | [] => none
  | o :: os => if o = 0 then some .own else if o ∈ seen then some .again else clash? (o :: seen) os

/-- The fingers of the member at `position`, in hop order. -/
def fingers (members : List Entry) (offs : List Nat) (position : Nat) : List Entry :=
  offs.filterMap fun o => members[(position + o) % members.length]?

/-- The tables of all members from the one at `position` on, labelled with their identifiers. -/
def tablesFrom (members : List Entry) (offs : List Nat) :
    (position : Nat) → List Entry → Except LayoutError (List (NodeId × FingerTable))
  | _, [] => .ok []
  | position, m :: ms =>
    match FingerTable.ofEntries (fingers members offs position) with
    | .error refusal => .error (.duplicate refusal)
    | .ok table =>
      match tablesFrom members offs (position + 1) ms with
      | .error e => .error e
      | .ok tables => .ok ((m.id, table) :: tables)

/-- A table of `size` fingers for every member, in the order of `members`. -/
def tables (members : List Entry) (size : Nat) :
    Except LayoutError (List (NodeId × FingerTable)) :=
  match members with
  | [] => .error .noNodes
  | [m] => if size = 0 then .error .emptyTable else .ok [(m.id, .empty)]
  | _ =>
    if size = 0 then .error .emptyTable
    else
      let nodes := members.length
      let offs := offsets nodes (min size nodes)
      match clash? [] offs with
      | some .own => .error (.selfEntry size nodes)
      | some .again => .error (.repeatedEntry size nodes)
      | none => tablesFrom members offs 0 members

end Layout

end RingOverlay
