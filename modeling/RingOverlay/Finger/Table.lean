import RingOverlay.Ring.Id
import RingOverlay.Address.Peer
import RingOverlay.Text.Column

/-!
# Finger — tables and the forwarding rule

A node knows the overlay through its *fingers*: a list of nodes in hop order, no two of them with
one identifier.  A packet for `dst` goes to `dst` itself if it is a finger; else to the finger that
precedes `dst` most closely; else, when every finger lies past `dst`, around the ring to the
greatest finger.
-/

namespace RingOverlay

/-- A node on the ring and where to reach it. -/
structure Entry where
  id : NodeId
  address : PeerAddress
  deriving DecidableEq, Repr

/-- The refusal of a second finger with one identifier. -/
structure DuplicateEntry where
  id : NodeId
  deriving DecidableEq, Repr

namespace DuplicateEntry

/-- The refusal in words. -/
def message (e : DuplicateEntry) : String :=
  s!"Node {e.id.text} already has an entry in this routing table"

end DuplicateEntry

/-- Fingers in hop order, with distinct identifiers. -/
structure FingerTable where
  entries : List Entry
  nodup_ids : (entries.map Entry.id).Nodup
  deriving DecidableEq

/-- A forwarding decision: the finger chosen, and the rule that chose it. -/
inductive Hop where
  /-- The destination is itself a finger. -/
  | exact (finger : Entry)
  /-- The greatest finger below the destination. -/
  | preceding (finger : Entry)
  /-- No finger is below the destination, and this is the greatest of all. -/
  | wraparound (finger : Entry)
  deriving DecidableEq, Repr

/-- The finger a decision hands the packet to. -/
def Hop.entry : Hop → Entry
  | exact finger => finger
  | preceding finger => finger
  | wraparound finger => finger

namespace FingerTable

/-- The table without fingers. -/
def empty : FingerTable := ⟨[], .nil⟩

/-- How many fingers there are. -/
def size (t : FingerTable) : Nat := t.entries.length

/-- The fingers' identifiers in hop order. -/
def ids (t : FingerTable) : List NodeId := t.entries.map Entry.id

/-- The finger with identifier `id`, if there is one. -/
def get? (t : FingerTable) (id : NodeId) : Option Entry := t.entries.find? (·.id == id)

/-- Whether `id` is a finger. -/
def contains (t : FingerTable) (id : NodeId) : Bool := (t.get? id).isSome

theorem not_mem_ids_of_get?_eq_none {t : FingerTable} {id : NodeId} (h : t.get? id = none) :
    id ∉ t.entries.map Entry.id := by
  intro hm
  obtain ⟨e, he, hid⟩ := List.mem_map.mp hm
  have := List.find?_eq_none.mp h e he
  simp [hid] at this

/-- The table with one more finger at its end. -/
def push (t : FingerTable) (e : Entry) : Except DuplicateEntry FingerTable :=
  match h : t.get? e.id with
  | some _ => .error ⟨e.id⟩
  | none => .ok ⟨t.entries ++ [e], by
      have hn := not_mem_ids_of_get?_eq_none h
      rw [List.map_append, List.nodup_append]
      refine ⟨t.nodup_ids, by simp, ?_⟩
      intro a ha b hb
      simp only [List.map_cons, List.map_nil, List.mem_singleton] at hb
      exact fun hab => hn (hb ▸ hab ▸ ha)⟩

/-- The table with `es` added one by one; the first repeated identifier is refused. -/
def pushAll : List Entry → FingerTable → Except DuplicateEntry FingerTable
  | [], t => .ok t
  | e :: es, t =>
    match t.push e with
    | .ok t' => pushAll es t'
    | .error refusal => .error refusal

/-- The table of `es` in hop order. -/
def ofEntries (es : List Entry) : Except DuplicateEntry FingerTable := pushAll es empty

/-- The entry with the greatest identifier. -/
def greatest? : List Entry → Option Entry
  | [] => none
  | e :: es =>
    match greatest? es with
    | some best => if best.id < e.id then some e else some best
    | none => some e

/-- The finger to hand a packet for `dst` to; there is none only if the table is empty. -/
def nextHop (t : FingerTable) (dst : NodeId) : Option Hop :=
  match t.get? dst with
  | some e => some (.exact e)
  | none =>
    match greatest? (t.entries.filter (·.id < dst)) with
    | some e => some (.preceding e)
    | none => (greatest? t.entries).map .wraparound

/-- One line per finger, in hop order: its identifier and its address. -/
def text (t : FingerTable) : String :=
  Text.unlines (t.entries.map fun e => e.id.text ++ ": " ++ e.address.text)

/-- The fingers as they are listed below a heading, indented; an empty table says so. -/
def listing (t : FingerTable) : List String :=
  if t.entries = [] then ["  (empty)"]
  else t.entries.map fun e => "  " ++ e.id.text ++ ": " ++ e.address.text

end FingerTable

end RingOverlay
