import Mathlib.Data.List.Basic
import RingOverlay.Proofs.Finger.NextHop
import RingOverlay.Proofs.Finger.Tables

/-!
# Finger — the greedy walk

A packet for `dst` goes from node to node, each of which knows only its own fingers: the *trail* of
the packet is the list of nodes it meets.  Nodes are ranked by `distance`, the number of places
from a member onwards to another around the sorted membership.

* `hop_closer`: every member but the destination has a hop, to a member that is strictly closer to
  the destination.  Its successor is a finger that is one place closer, and the finger chosen is no
  further around the ring of identifiers than that (`nextHop_closest`); identifiers and positions
  rank members alike (`distance_lt_iff`).
* `trail_arrives`: so the trail ends at the destination after at most as many hops as it was away.
* `greedy_walk_delivers`: a walk stops if and only if its destination is a member, and what it meets
  on its way there.
-/

namespace RingOverlay.Layout

/-! ### Walks -/

/-- Where the node `here` hands a packet for `dst` on to, by its own table. -/
def hop? (ts : List (NodeId × FingerTable)) (dst here : NodeId) : Option NodeId :=
  (ts.lookup here).bind fun t => (t.nextHop dst).map fun hop => hop.entry.id

/-- The nodes that a packet for `dst` meets on its first `k` hops from `here`.  It goes no further
once it has arrived, or has met a node without a hop. -/
def trail (ts : List (NodeId × FingerTable)) (dst : NodeId) : (k : Nat) → NodeId → List NodeId
  | 0, _ => []
  | k + 1, here =>
    if here = dst then []
    else
      match hop? ts dst here with
      | none => []
      | some next => next :: trail ts dst k next

theorem hop?_eq_some {ts : List (NodeId × FingerTable)} {dst here : NodeId} {t : FingerTable}
    {hop : Hop} (ht : ts.lookup here = some t) (hhop : t.nextHop dst = some hop) :
    hop? ts dst here = some hop.entry.id := by
  simp [hop?, ht, hhop]

/-- The position of the member with identifier `id`. -/
def position (members : List Entry) (id : NodeId) : Nat := members.findIdx (·.id == id)

/-- The places from one member onwards to another, around the membership. -/
def distance (members : List Entry) (here dst : NodeId) : Nat :=
  clockwise members.length (position members here) (position members dst)

/-- `ts` are tables of `size` fingers, laid out over at least two members in ascending order. -/
structure Laid (members : List Entry) (size : Nat) (ts : List (NodeId × FingerTable)) : Prop where
  ascending : members.Pairwise fun a b => a.id < b.id
  several : 2 ≤ members.length
  tables : Layout.tables members size = .ok ts

variable {members : List Entry} {size : Nat} {ts : List (NodeId × FingerTable)}

/-! ### Positions -/

theorem id_lt_iff (ha : members.Pairwise fun a b => a.id < b.id) {i j : Nat} {a b : Entry}
    (hi : members[i]? = some a) (hj : members[j]? = some b) : a.id < b.id ↔ i < j := by
  obtain ⟨hi', rfl⟩ := List.getElem?_eq_some_iff.mp hi
  obtain ⟨hj', rfl⟩ := List.getElem?_eq_some_iff.mp hj
  have hlt := List.pairwise_iff_getElem.mp ha
  constructor
  · intro h
    rcases Nat.lt_trichotomy i j with hij | rfl | hji
    · exact hij
    · exact absurd h (Nat.lt_irrefl _)
    · exact absurd (Nat.lt_trans h (hlt j i hj' hi' hji)) (Nat.lt_irrefl _)
  · exact hlt i j hi' hj'

theorem position_eq (ha : members.Pairwise fun a b => a.id < b.id) {i : Nat} {m : Entry}
    (hi : members[i]? = some m) : position members m.id = i := by
  obtain ⟨hlt, rfl⟩ := List.getElem?_eq_some_iff.mp hi
  refine (List.findIdx_eq hlt).mpr ⟨by simp, fun j hj => ?_⟩
  have hne : members[j].id ≠ members[i].id := fun h =>
    absurd (h ▸ List.pairwise_iff_getElem.mp ha j i _ hlt hj) (Nat.lt_irrefl _)
  simpa using hne

theorem distance_eq (ha : members.Pairwise fun a b => a.id < b.id) {i j : Nat} {a b : Entry}
    (hi : members[i]? = some a) (hj : members[j]? = some b) :
    distance members a.id b.id = clockwise members.length i j := by
  rw [distance, position_eq ha hi, position_eq ha hj]

/-- Seen from a member, positions rank the others as identifiers do. -/
theorem distance_lt_iff (ha : members.Pairwise fun a b => a.id < b.id) {a b c : Entry}
    (hma : a ∈ members) (hmb : b ∈ members) (hmc : c ∈ members) :
    distance members a.id c.id < distance members b.id c.id ↔
      clockwise ringSize a.id c.id < clockwise ringSize b.id c.id := by
  obtain ⟨i, hi⟩ := List.getElem?_of_mem hma
  obtain ⟨j, hj⟩ := List.getElem?_of_mem hmb
  obtain ⟨k, hk⟩ := List.getElem?_of_mem hmc
  rw [distance_eq ha hi hk, distance_eq ha hj hk]
  exact clockwise_lt_iff (List.getElem?_eq_some_iff.mp hi).1 (List.getElem?_eq_some_iff.mp hj).1
    (List.getElem?_eq_some_iff.mp hk).1 a.id.isLt b.id.isLt c.id.isLt
    (id_lt_iff ha hj hi).symm (id_lt_iff ha hk hi).symm (id_lt_iff ha hk hj).symm

namespace Laid

/-! ### Hops -/

theorem nodup_ids (hl : Laid members size ts) : (members.map Entry.id).Nodup :=
  List.pairwise_map.mpr (hl.ascending.imp fun h => Fin.ne_of_lt h)

/-- A member's own table, which is the one that its identifier leads to. -/
theorem table_at (hl : Laid members size ts) {i : Nat} {m : Entry} (hi : members[i]? = some m) :
    ∃ t, ts[i]? = some (m.id, t) ∧ ts.lookup m.id = some t ∧
      t.entries = fingers members (offsets members.length (min size members.length)) i := by
  obtain ⟨-, hids, hall⟩ := tables_eq_ok hl.several hl.tables
  obtain ⟨t, ht, hes⟩ := hall i m hi
  refine ⟨t, ht, List.lookup_eq_some_iff.mpr ?_, hes⟩
  obtain ⟨hlt, hti⟩ := List.getElem?_eq_some_iff.mp ht
  have hnd : (ts.map Prod.fst).Nodup := hids ▸ hl.nodup_ids
  refine ⟨ts.take i, ts.drop (i + 1), ?_, fun p hp => ?_⟩
  · rw [← hti, List.getElem_cons_drop, List.take_append_drop]
  · obtain ⟨j, hj, rfl⟩ := List.mem_take_iff_getElem.mp hp
    have hne := List.pairwise_iff_getElem.mp hnd j i (by simp; omega) (by simpa using hlt)
      (by omega)
    simp only [List.getElem_map, hti] at hne
    simpa using hne.symm

theorem mem_of_mem_table {offs : List Nat} {i : Nat} {e : Entry} (h : e ∈ fingers members offs i) :
    e ∈ members := by
  obtain ⟨o, -, ho⟩ := mem_fingers.mp h
  exact List.mem_of_getElem? ho

/-- Every member has its successor for a finger. -/
theorem exists_successor (hl : Laid members size ts) (i : Nat) :
    ∃ s, members[(i + 1) % members.length]? = some s ∧
      s ∈ fingers members (offsets members.length (min size members.length)) i := by
  have hpos : 0 < members.length := Nat.lt_of_lt_of_le Nat.two_pos hl.several
  have hlt := Nat.mod_lt (i + 1) hpos
  refine ⟨members[(i + 1) % members.length], List.getElem?_eq_getElem hlt, mem_fingers.mpr ?_⟩
  exact ⟨1, one_mem_offsets hl.several (tables_eq_ok hl.several hl.tables).1,
    List.getElem?_eq_getElem hlt⟩

/-- Every member has a hop for every destination, to a member. -/
theorem hop_exists (hl : Laid members size ts) (dst : NodeId) {m : Entry} (hm : m ∈ members) :
    ∃ t hop, ts.lookup m.id = some t ∧ t.nextHop dst = some hop ∧ hop.entry ∈ members := by
  obtain ⟨i, hi⟩ := List.getElem?_of_mem hm
  obtain ⟨t, -, hlook, hes⟩ := hl.table_at hi
  obtain ⟨s, -, hs⟩ := hl.exists_successor i
  obtain ⟨hop, hhop⟩ := Option.ne_none_iff_exists'.mp
    (mt FingerTable.nextHop_eq_none_iff.mp (hes ▸ List.ne_nil_of_mem hs))
  exact ⟨t, hop, hlook, hhop, mem_of_mem_table (hes ▸ FingerTable.nextHop_mem hhop)⟩

/-- A hop leads to a member. -/
theorem hop_mem (hl : Laid members size ts) {m : Entry} (hm : m ∈ members) {t : FingerTable}
    (ht : ts.lookup m.id = some t) {dst : NodeId} {hop : Hop} (hhop : t.nextHop dst = some hop) :
    hop.entry ∈ members := by
  obtain ⟨t', hop', ht', hhop', hmem⟩ := hl.hop_exists dst hm
  obtain rfl : t = t' := Option.some.inj (ht.symm.trans ht')
  obtain rfl : hop = hop' := Option.some.inj (hhop.symm.trans hhop')
  exact hmem

/-- **Progress.**  The hop of a member that is not the destination itself leads to a member that is
strictly closer to it. -/
theorem hop_closer (hl : Laid members size ts) {dst m : Entry} (hd : dst ∈ members)
    (hm : m ∈ members) (hne : m.id ≠ dst.id) {t : FingerTable} (ht : ts.lookup m.id = some t)
    {hop : Hop} (hhop : t.nextHop dst.id = some hop) :
    distance members hop.entry.id dst.id < distance members m.id dst.id := by
  obtain ⟨i, hi⟩ := List.getElem?_of_mem hm
  obtain ⟨d, hdi⟩ := List.getElem?_of_mem hd
  obtain ⟨t', -, ht', hes⟩ := hl.table_at hi
  obtain rfl : t = t' := Option.some.inj (ht.symm.trans ht')
  obtain ⟨s, hsi, hs⟩ := hl.exists_successor i
  have hmem := hl.hop_mem hm ht hhop
  -- the successor is one place closer, and the hop is no further than the successor
  have hsucc : distance members s.id dst.id + 1 = distance members m.id dst.id := by
    rw [distance_eq hl.ascending hsi hdi, distance_eq hl.ascending hi hdi]
    refine clockwise_succ (List.getElem?_eq_some_iff.mp hi).1
      (List.getElem?_eq_some_iff.mp hdi).1 ?_
    rintro rfl
    exact hne (congrArg Entry.id (Option.some.inj (hi.symm.trans hdi)))
  have hclosest := FingerTable.nextHop_closest hhop (hes ▸ hs)
  have hle := mt (distance_lt_iff hl.ascending (mem_of_mem_table hs) hmem hd).mp
    (Nat.not_lt.mpr hclosest)
  omega

/-! ### Trails -/

/-- A trail from a member that is not the destination starts with its hop. -/
theorem trail_succ {dst here next : NodeId} (hne : here ≠ dst) (hq : hop? ts dst here = some next)
    (k : Nat) : trail ts dst (k + 1) here = next :: trail ts dst k next := by
  simp only [trail, if_neg hne, hq]

theorem trail_self {dst : NodeId} (k : Nat) : trail ts dst k dst = [] := by
  cases k <;> simp [trail]

/-- **Arrival.**  From a member, the trail ends at a member that is the destination after at most
as many hops as it was away, each of them strictly closer to it than the last. -/
theorem trail_arrives (hl : Laid members size ts) {dst : Entry} (hd : dst ∈ members) {m : Entry}
    (hm : m ∈ members) (hne : m.id ≠ dst.id) :
    ∃ relays : List NodeId, (∀ r ∈ relays, r ∈ members.map Entry.id) ∧
      relays.length < distance members m.id dst.id ∧
      (m.id :: (relays ++ [dst.id])).IsChain
        (fun a b => distance members b dst.id < distance members a dst.id) ∧
      ∀ k, distance members m.id dst.id ≤ k → trail ts dst.id k m.id = relays ++ [dst.id] := by
  -- induction on how far it is to go, which every hop lowers
  induction hg : distance members m.id dst.id using Nat.strongRecOn generalizing m with
  | _ g ih =>
    subst hg
    obtain ⟨t, hop, ht, hhop, hnext⟩ := hl.hop_exists dst.id hm
    have hq := hop?_eq_some ht hhop
    have hlt := hl.hop_closer hd hm hne ht hhop
    by_cases harr : hop.entry.id = dst.id
    · refine ⟨[], by simp, by simp; omega, ?_, fun k hk => ?_⟩
      · rw [List.nil_append, List.isChain_cons_cons]
        exact ⟨harr ▸ hlt, .singleton _⟩
      · obtain ⟨k, rfl⟩ : ∃ j, k = j + 1 := ⟨k - 1, by omega⟩
        rw [trail_succ hne hq, harr, trail_self, List.nil_append]
    · obtain ⟨relays, hmem, hlen, hchain, htrail⟩ := ih _ hlt hnext harr rfl
      refine ⟨hop.entry.id :: relays, ?_, by simp; omega, ?_, fun k hk => ?_⟩
      · rintro r (_ | ⟨_, hr⟩)
        · exact List.mem_map_of_mem hnext
        · exact hmem r hr
      · rw [List.cons_append, List.isChain_cons_cons]
        exact ⟨hlt, hchain⟩
      · obtain ⟨k, rfl⟩ : ∃ j, k = j + 1 := ⟨k - 1, by omega⟩
        rw [trail_succ hne hq, htrail k (by omega), List.cons_append]

/-- A walk never meets anyone but members. -/
theorem trail_subset (hl : Laid members size ts) (dst : NodeId) (k : Nat) {m : Entry}
    (hm : m ∈ members) : ∀ r ∈ trail ts dst k m.id, r ∈ members.map Entry.id := by
  induction k generalizing m with
  | zero => simp [trail]
  | succ k ih =>
    by_cases hne : m.id = dst
    · simp [trail, hne]
    · obtain ⟨t, hop, ht, hhop, hmem⟩ := hl.hop_exists dst hm
      rw [trail_succ hne (hop?_eq_some ht hhop)]
      rintro r (_ | ⟨_, hr⟩)
      · exact List.mem_map_of_mem hmem
      · exact ih hmem r hr

/-- A walk for nobody's identifier always finds one more hop. -/
theorem trail_circulates (hl : Laid members size ts) {dst : NodeId}
    (hd : dst ∉ members.map Entry.id) (k : Nat) {m : Entry} (hm : m ∈ members) :
    (trail ts dst k m.id).length = k := by
  induction k generalizing m with
  | zero => rfl
  | succ k ih =>
    obtain ⟨t, hop, ht, hhop, hmem⟩ := hl.hop_exists dst hm
    have hne : m.id ≠ dst := fun h => hd (h ▸ List.mem_map_of_mem hm)
    rw [trail_succ hne (hop?_eq_some ht hhop), List.length_cons, ih hmem]

end Laid

/-- What strictly approaches a goal never comes by one place twice. -/
theorem nodup_of_closer {f : NodeId → Nat} {l : List NodeId} (h : l.IsChain fun a b => f b < f a) :
    l.Nodup := by
  have : Trans (fun a b : NodeId => f b < f a) (fun a b => f b < f a) fun a b => f b < f a :=
    ⟨fun hab hbc => Nat.lt_trans hbc hab⟩
  exact h.pairwise.imp fun hlt hab => absurd (hab ▸ hlt) (Nat.lt_irrefl _)

/-- `relays` are the members that hand a packet from `src` on to `dst`, in order. -/
structure Route (members : List Entry) (ts : List (NodeId × FingerTable)) (src dst : NodeId)
    (relays : List NodeId) : Prop where
  /-- The walk ends at `dst`, within one hop less than there are members. -/
  arrives : ∀ k, members.length - 1 ≤ k → trail ts dst k src = relays ++ [dst]
  short : (relays ++ [dst]).length ≤ members.length - 1
  closer : (src :: (relays ++ [dst])).IsChain
    (fun a b => distance members b dst < distance members a dst)
  relays_mem : ∀ r ∈ relays, r ∈ members.map Entry.id
  nodup : relays.Nodup
  src_not_mem : src ∉ relays
  dst_not_mem : dst ∉ relays

/-- There is a route from every member to every other. -/
theorem Laid.exists_route (hl : Laid members size ts) {src dst : NodeId}
    (hsrc : src ∈ members.map Entry.id) (hdst : dst ∈ members.map Entry.id) (hne : src ≠ dst) :
    ∃ relays, Route members ts src dst relays := by
  obtain ⟨m, hm, rfl⟩ := List.mem_map.mp hsrc
  obtain ⟨e, he, rfl⟩ := List.mem_map.mp hdst
  obtain ⟨relays, hmem, hlen, hchain, htrail⟩ := hl.trail_arrives he hm hne
  have hlt : distance members m.id e.id < members.length :=
    clockwise_lt (Nat.lt_of_lt_of_le Nat.two_pos hl.several) _ _
  have hnd := nodup_of_closer hchain
  rw [List.nodup_cons, List.nodup_append] at hnd
  obtain ⟨hsrc, hnd, -, hdisj⟩ := hnd
  refine ⟨relays, fun k hk => htrail k (by omega), by simp; omega, hchain, hmem, hnd,
    fun h => hsrc (List.mem_append_left _ h), fun h => ?_⟩
  exact hdisj _ h _ (List.mem_singleton_self _) rfl

/-- **Greedy forwarding always delivers.**  Over any ascending membership of at least two, and with
tables of any size that can be laid out, a walk from a member runs out of hops if and only if its
destination is a member.  Then it reaches the destination after fewer hops than there are members;
every hop is strictly closer to it; and the members that relay are distinct, and neither the source
nor the destination.  For any other destination every member on the way has one more hop, and the
walk never ends. -/
theorem greedy_walk_delivers (ha : members.Pairwise fun a b => a.id < b.id)
    (hn : 2 ≤ members.length) (ht : tables members size = .ok ts) {src dst : NodeId}
    (hsrc : src ∈ members.map Entry.id) (hne : src ≠ dst) :
    ((∃ k, (trail ts dst k src).length < k) ↔ dst ∈ members.map Entry.id) ∧
    (dst ∈ members.map Entry.id → ∃ relays, Route members ts src dst relays) ∧
    (dst ∉ members.map Entry.id → ∀ k, (trail ts dst k src).length = k ∧
      ∀ r ∈ src :: trail ts dst k src, r ∈ members.map Entry.id ∧ (hop? ts dst r).isSome) := by
  have hl : Laid members size ts := ⟨ha, hn, ht⟩
  obtain ⟨m, hm, rfl⟩ := List.mem_map.mp hsrc
  refine ⟨⟨fun ⟨k, hk⟩ => ?_, fun hd => ?_⟩, fun hd => hl.exists_route hsrc hd hne,
    fun hd k => ⟨hl.trail_circulates hd k hm, fun r hr => ?_⟩⟩
  · by_contra hd
    exact absurd (hl.trail_circulates hd k hm) (Nat.ne_of_lt hk)
  · obtain ⟨relays, hroute⟩ := hl.exists_route hsrc hd hne
    have hshort := hroute.short
    refine ⟨members.length, ?_⟩
    rw [hroute.arrives _ (Nat.sub_le _ _)]
    omega
  · have hr : r ∈ members.map Entry.id := by
      rcases List.mem_cons.mp hr with rfl | hr
      · exact hsrc
      · exact hl.trail_subset dst k hm r hr
    obtain ⟨x, hx, rfl⟩ := List.mem_map.mp hr
    obtain ⟨t, hop, ht, hhop, -⟩ := hl.hop_exists dst hx
    exact ⟨hr, by rw [hop?_eq_some ht hhop]; rfl⟩

/-- Nine members, at every fourteenth identifier. -/
def nine : List Entry :=
  (List.finRange 9).map fun i : Fin 9 =>
    ⟨⟨14 * i.val + 3, by have := i.isLt; unfold ringSize; omega⟩,
      ⟨"127.0.0.1", UInt16.ofNat (7001 + i.val)⟩⟩

/-- Five offsets over nine members wrap around: the last is `16` less `9`. -/
theorem greedy_walk_delivers_nine : ∃ ts, tables nine 5 = .ok ts ∧
    (∃ relays, Route nine ts ⟨3, by decide⟩ ⟨87, by decide⟩ relays) ∧
    ∀ k, (trail ts ⟨86, by decide⟩ k ⟨3, by decide⟩).length = k := by
  have hok : (tables nine 5).isOk = true := by decide
  cases ht : tables nine 5 with
  | error e => simp [ht, Except.isOk, Except.toBool] at hok
  | ok ts =>
    have ha : nine.Pairwise fun a b => a.id < b.id := by decide
    refine ⟨ts, rfl, ?_, fun k => ?_⟩
    · exact (greedy_walk_delivers ha (by decide) ht (by decide) (by decide)).2.1 (by decide)
    · exact ((greedy_walk_delivers ha (by decide) ht (by decide) (by decide)).2.2 (by decide) k).1

end RingOverlay.Layout
