import Mathlib.Algebra.BigOperators.Group.Multiset.Basic
import RingOverlay.Proofs.Finger.Walk
import RingOverlay.Proofs.Node.Traffic

/-!
# Mesh — nodes that pass packets on

A mesh is the nodes of an overlay and the data packets on their way between them.  In one step a
node handles a task (`Initiates`) or one of the packets that were sent to it (`Handles`), and what
it queues is in flight next.  Packets in flight have no order: any of them may be handled next.

`Ready members size ts m` says what a setup leaves behind: the nodes are the members, each knows its
own table and the identifiers of all, has a live connection to every finger, and has counted
nothing.
-/

namespace RingOverlay

/-- Nodes, and the data packets on their way between them. -/
structure Mesh where
  nodes : List Node
  /-- What is queued and not yet handled, with the address it was sent to. -/
  inFlight : Multiset (PeerAddress × Packet)
  /-- What the nodes have done, newest first. -/
  history : List NodeEffect

/-- The node, with what it has done forgotten. -/
def Node.quiet (n : Node) : Node := { n with effects := [] }

/-- The address that a node has dialed to make a connection. -/
def Node.addressee? (n : Node) (link : LinkId) : Option PeerAddress :=
  match n.links.end? link with
  | some (.dialed a) => some a
  | _ => none

namespace Mesh

open NodeEffect

/-- What a queued packet puts in flight. -/
def post? (n : Node) (q : LinkId × Packet) : Option (PeerAddress × Packet) :=
  (n.addressee? q.1).map fun a => (a, q.2)

/-- Node `k` has become `n`, and what it has queued is in flight. -/
def collect (m : Mesh) (k : Nat) (n : Node) : Mesh where
  nodes := m.nodes.set k n
  inFlight := m.inFlight + ↑((n.effects.filterMap queued?).filterMap (post? n))
  history := n.effects ++ m.history

/-- Some node handles a task. -/
inductive Initiates (m : Mesh) : Mesh → Prop where
  | mk {k : Nat} {n : Node} (reaches : PeerAddress → Bool) (draws : Draws) (link : LinkId)
      (far : Endpoint) (count : UInt32) (hk : m.nodes[k]? = some n) :
      Initiates m (m.collect k (n.quiet.handle reaches draws link far (.taskInitiate count)))

/-- Some node handles a packet that was sent to it. -/
inductive Handles (m : Mesh) : Mesh → Prop where
  | mk {k : Nat} {n : Node} {p : Packet} {rest : Multiset (PeerAddress × Packet)}
      (reaches : PeerAddress → Bool) (draws : Draws) (link : LinkId) (far : Endpoint)
      (hk : m.nodes[k]? = some n) (hp : m.inFlight = (n.address, p) ::ₘ rest) :
      Handles m ({ m with inFlight := rest }.collect k
        (n.quiet.handle reaches draws link far (.dataPacket p)))

/-- A run from `m₀`, in which packets have been handled `handled` times. -/
inductive Run (m₀ : Mesh) : (handled : Nat) → Mesh → Prop where
  | start : Run m₀ 0 m₀
  | initiates {handled : Nat} {m m' : Mesh} : Run m₀ handled m → Initiates m m' →
      Run m₀ handled m'
  | handles {handled : Nat} {m m' : Mesh} : Run m₀ handled m → Handles m m' →
      Run m₀ (handled + 1) m'

/-! ### What is observed -/

/-- What has been originated. -/
def originated (m : Mesh) : Multiset Cargo := m.history.filterMap originated?

/-- What has been delivered. -/
def deliveries (m : Mesh) : Multiset Delivery := m.history.filterMap delivered?

/-- The sum of a counter over all nodes. -/
def total {α : Type} [AddCommMonoid α] (f : Counters → α) (m : Mesh) : α :=
  (m.nodes.map fun n => f n.counters).sum

/-! ### After a setup -/

/-- The node `n` is the member `e` of an overlay: it knows its table `t` and the identifiers `ids`
of all, and has a live connection to every finger. -/
structure Wired (n : Node) (e : Entry) (t : FingerTable) (ids : List NodeId) : Prop where
  address : n.address = e.address
  topology : n.topology = ⟨some e.id, t, ids⟩
  live : ∀ f ∈ t.entries, ∃ link, n.live? f.address = some link ∧
    n.addressee? link = some f.address

/-- The nodes are the members, wired up with their tables. -/
structure Assembled (members : List Entry) (ts : List (NodeId × FingerTable)) (nodes : List Node) :
    Prop where
  length : nodes.length = members.length
  wired : ∀ (k : Nat) (e : Entry) (n : Node), members[k]? = some e → nodes[k]? = some n →
    ∃ t, ts.lookup e.id = some t ∧ Wired n e t (members.map Entry.id)

/-- An overlay has been set up over members at addresses of their own, and nothing has been sent
yet. -/
structure Ready (members : List Entry) (size : Nat) (ts : List (NodeId × FingerTable)) (m : Mesh) :
    Prop where
  laid : Layout.Laid members size ts
  addresses : (members.map Entry.address).Nodup
  assembled : Assembled members ts m.nodes
  zero : ∀ n ∈ m.nodes, n.counters = .zero
  inFlight : m.inFlight = 0
  history : m.history = []

/-! ### Collecting -/

variable {m : Mesh} {k : Nat} {n n' : Node} {c : Counters} {o : List Cargo} {d : List Delivery}
  {q : List (LinkId × Packet)}

/-- What has been left behind by traffic that started from a quiet node. -/
theorem originated_collect (ht : n.quiet.Traffic n' c o d q) :
    (m.collect k n').originated = o + m.originated := by
  obtain ⟨es, rfl, rfl, -, -⟩ := ht
  simp [originated, collect, Node.quiet]

theorem deliveries_collect (ht : n.quiet.Traffic n' c o d q) :
    (m.collect k n').deliveries = d + m.deliveries := by
  obtain ⟨es, rfl, -, rfl, -⟩ := ht
  simp [deliveries, collect, Node.quiet]

theorem inFlight_collect (ht : n.quiet.Traffic n' c o d q) :
    (m.collect k n').inFlight = m.inFlight + ↑(q.filterMap (post? n)) := by
  obtain ⟨es, rfl, -, -, rfl⟩ := ht
  -- a connection leads to the same address after the step as before it
  have hpost : post? n =
      post? { n.quiet with counters := c, effects := es ++ n.quiet.effects } := by
    funext q
    rfl
  rw [collect, hpost]
  simp [Node.quiet]

theorem sum_map_set {α : Type} [AddCommMonoid α] (f : Node → α) (n' : Node) {l : List Node}
    (hk : l[k]? = some n) : ((l.set k n').map f).sum + f n = (l.map f).sum + f n' := by
  induction l generalizing k with
  | nil => simp at hk
  | cons x l ih =>
    cases k with
    | zero =>
      cases hk
      simp only [List.set_cons_zero, List.map_cons, List.sum_cons]
      rw [add_comm (f n'), add_assoc, add_comm (f n'), ← add_assoc, add_comm _ (f n)]
    | succ k =>
      simp only [List.set_cons_succ, List.map_cons, List.sum_cons, add_assoc, ih hk]

/-- A total changes by what the one node's counter does. -/
theorem total_collect {α : Type} [AddCommMonoid α] (f : Counters → α) (hk : m.nodes[k]? = some n)
    (ht : n.quiet.Traffic n' c o d q) :
    (m.collect k n').total f + f n.counters = m.total f + f c := by
  have hset := sum_map_set (fun n => f n.counters) n' hk
  rwa [ht.same.2.2.2.2] at hset

theorem total_collect_add {α : Type} [AddCancelCommMonoid α] {f : Counters → α} {x : α}
    (hk : m.nodes[k]? = some n) (ht : n.quiet.Traffic n' c o d q) (hf : f c = f n.counters + x) :
    (m.collect k n').total f = m.total f + x := by
  have htotal := total_collect f hk ht
  rw [hf, add_comm (f n.counters), ← add_assoc] at htotal
  exact add_right_cancel htotal

end Mesh

end RingOverlay
