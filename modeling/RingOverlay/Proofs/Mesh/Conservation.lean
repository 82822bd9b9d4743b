import Mathlib.Algebra.Order.BigOperators.Group.Multiset
import Mathlib.Algebra.Order.Group.Nat
import Mathlib.Algebra.Ring.Int.Defs
import Mathlib.Algebra.Ring.Nat
import RingOverlay.Proofs.Mesh.State
import RingOverlay.Proofs.Traffic.Counters

/-!
# Mesh — no packet is lost

Whatever order tasks and packets are handled in, the cargo that has been originated is the cargo
that has been delivered and the cargo in flight, and the counters say as much.

A step is *balanced* (`Balanced`) when what it puts into the books it takes from flight or
originates.  The three things a node does, originating a task's packets, delivering one and relaying
one, are balanced (`balanced_task`, `balanced_delivery`, `balanced_relay`), and balanced steps keep
the invariant `Books` (`Books.advance`).  Part of it is a pace: a packet in flight is worth one more
than the places it is away from its destination, and no step costs more than it brings.
-/

namespace RingOverlay.Mesh

open Multiset

/-! ### Wired nodes -/

variable {members : List Entry} {size : Nat} {ts : List (NodeId × FingerTable)}

namespace Wired

variable {n n' : Node} {e : Entry} {t : FingerTable} {ids : List NodeId} {c : Counters}
  {o : List Cargo} {d : List Delivery} {q : List (LinkId × Packet)}

/-- A wired node has a route to every destination that its table has a hop for. -/
theorem route (hw : Wired n e t ids) {dst : NodeId} {hop : Hop} (hhop : t.nextHop dst = some hop) :
    ∃ link, n.route? dst = some link ∧ n.addressee? link = some hop.entry.address := by
  obtain ⟨link, hlive, hto⟩ := hw.live hop.entry (FingerTable.nextHop_mem hhop)
  refine ⟨link, ?_, hto⟩
  simp [Node.route?, hw.topology, hhop, hlive]

theorem of_traffic (hw : Wired n e t ids) (ht : n.quiet.Traffic n' c o d q) : Wired n' e t ids := by
  obtain ⟨es, rfl, -⟩ := ht
  exact ⟨hw.address, hw.topology, hw.live⟩

/-- What a wired node puts in flight: each packet goes to its hop. -/
theorem posts (hw : Wired n e t ids) {ps : List Packet}
    (hhop : ∀ p ∈ ps, ∃ hop, t.nextHop p.dst = some hop) :
    ∃ posted : List (PeerAddress × Packet),
      (ps.filterMap fun p => (n.route? p.dst).map (·, p)).filterMap (post? n) = posted ∧
      posted.map Prod.snd = ps ∧
      ∀ x ∈ posted, ∃ hop, t.nextHop x.2.dst = some hop ∧ hop.entry.address = x.1 := by
  induction ps with
  | nil => exact ⟨[], rfl, rfl, by simp⟩
  | cons p ps ih =>
    obtain ⟨posted, hposted, hps, hall⟩ := ih fun x hx => hhop x (List.mem_cons_of_mem _ hx)
    obtain ⟨hop, hp⟩ := hhop p List.mem_cons_self
    obtain ⟨link, hroute, hto⟩ := hw.route hp
    refine ⟨(hop.entry.address, p) :: posted, ?_, by rw [List.map_cons, hps], ?_⟩
    · simp [hroute, post?, hto, hposted]
    · rintro x (_ | ⟨_, hx⟩)
      · exact ⟨hop, hp, rfl⟩
      · exact hall x hx

end Wired

theorem Assembled.set {nodes : List Node} (ha : Assembled members ts nodes) {k : Nat} {n n' : Node}
    {c : Counters} {o : List Cargo} {d : List Delivery} {q : List (LinkId × Packet)}
    (hk : nodes[k]? = some n) (ht : n.quiet.Traffic n' c o d q) :
    Assembled members ts (nodes.set k n') := by
  refine ⟨by rw [List.length_set, ha.length], fun j e x he hx => ?_⟩
  by_cases hjk : k = j
  · subst hjk
    obtain ⟨t, hlook, hw⟩ := ha.wired k e n he hk
    rw [List.getElem?_set_self (List.getElem?_eq_some_iff.mp hk).1] at hx
    obtain rfl := Option.some.inj hx
    exact ⟨t, hlook, hw.of_traffic ht⟩
  · rw [List.getElem?_set_ne hjk] at hx
    exact ha.wired j e x he hx

/-! ### The pace -/

/-- How many places a packet in flight is away from its destination. -/
def hopsLeft (members : List Entry) (x : PeerAddress × Packet) : Nat :=
  match members.find? (·.address == x.1) with
  | some e => Layout.distance members e.id x.2.dst
  | none => 0

theorem hopsLeft_eq (hnd : (members.map Entry.address).Nodup) {e : Entry} (he : e ∈ members)
    {x : PeerAddress × Packet} (hx : e.address = x.1) :
    hopsLeft members x = Layout.distance members e.id x.2.dst := by
  have hfind : members.find? (·.address == x.1) = some e := by
    obtain ⟨as, bs, rfl⟩ := List.append_of_mem he
    refine List.find?_eq_some_iff_append.mpr ⟨by simpa using hx, as, bs, rfl, fun a ha => ?_⟩
    rw [List.map_append, List.nodup_append] at hnd
    have hne := hnd.2.2 a.address (List.mem_map_of_mem ha) e.address (by simp)
    simpa [← hx] using hne
  rw [hopsLeft, hfind]

/-- What a packet in flight is worth. -/
def worth (members : List Entry) (s : Multiset (PeerAddress × Packet)) : Nat :=
  (s.map fun x => hopsLeft members x + 1).sum

/-- The hops that the packets of a multiset have on their traces. -/
def traced (s : Multiset (PeerAddress × Packet)) : Nat := (s.map fun x => x.2.trace.length).sum

@[simp] theorem worth_zero : worth members 0 = 0 := rfl

@[simp] theorem worth_singleton (x : PeerAddress × Packet) :
    worth members {x} = hopsLeft members x + 1 := by
  rw [worth, Multiset.map_singleton, sum_singleton]

theorem worth_add (s t : Multiset (PeerAddress × Packet)) :
    worth members (s + t) = worth members s + worth members t := by
  rw [worth, Multiset.map_add, sum_add, ← worth, ← worth]

@[simp] theorem traced_zero : traced 0 = 0 := rfl

@[simp] theorem traced_singleton (x : PeerAddress × Packet) :
    traced {x} = x.2.trace.length := by
  rw [traced, Multiset.map_singleton, sum_singleton]

theorem traced_add (s t : Multiset (PeerAddress × Packet)) :
    traced (s + t) = traced s + traced t := by
  rw [traced, Multiset.map_add, sum_add, ← traced, ← traced]

/-! ### The books -/

/-- A step in which one node's counters go from `c` to `c'`, `o` is originated, `d` delivered,
`taken` taken from flight and `posted` put in flight. -/
structure Balanced (members : List Entry) (c c' : Counters) (o : List Cargo) (d : List Delivery)
    (taken posted : Multiset (PeerAddress × Packet)) : Prop where
  cargo : ↑o + taken.map (·.2.cargo) = (d : Multiset Delivery).map (·.cargo) +
    posted.map (·.2.cargo)
  home : ∀ x ∈ d, x.node = x.cargo.dst
  addressed : ∀ x ∈ posted, (∃ e ∈ members, e.address = x.1) ∧ x.2.dst ∈ members.map Entry.id
  tame : c'.Tame
  sent : c'.sent.toNat = c.sent.toNat + o.length
  sentSum : c'.sentSum.toInt = c.sentSum.toInt + (o.map (·.payload.toInt)).sum
  received : c'.received.toNat = c.received.toNat + d.length
  receivedSum : c'.receivedSum.toInt = c.receivedSum.toInt + (d.map (·.cargo.payload.toInt)).sum
  relayed : c'.relayed.toNat + traced taken = c.relayed.toNat + (d.map (·.hops)).sum + traced posted
  relayed_le : c'.relayed.toNat ≤ c.relayed.toNat + card taken
  pace : card taken + worth members posted ≤ worth members taken + o.length * (members.length - 1)

/-- What holds of a mesh in which packets have been handled `handled` times. -/
structure Books (members : List Entry) (handled : Nat) (m : Mesh) : Prop where
  cargo : m.originated = m.deliveries.map (·.cargo) + m.inFlight.map (·.2.cargo)
  home : ∀ x ∈ m.deliveries, x.node = x.cargo.dst
  addressed : ∀ x ∈ m.inFlight, (∃ e ∈ members, e.address = x.1) ∧ x.2.dst ∈ members.map Entry.id
  tame : ∀ n ∈ m.nodes, n.counters.Tame
  sent : m.total (·.sent.toNat) = card m.originated
  sentSum : m.total (·.sentSum.toInt) = (m.originated.map (·.payload.toInt)).sum
  received : m.total (·.received.toNat) = card m.deliveries
  receivedSum : m.total (·.receivedSum.toInt) = (m.deliveries.map (·.cargo.payload.toInt)).sum
  relayed : m.total (·.relayed.toNat) = (m.deliveries.map (·.hops)).sum + traced m.inFlight
  relayed_le : m.total (·.relayed.toNat) ≤ handled
  pace : handled + worth members m.inFlight ≤ card m.originated * (members.length - 1)

/-- A balanced step keeps the books. -/
theorem Books.advance {handled : Nat} {m : Mesh} (hb : Books members handled m) {k : Nat}
    {n n' : Node} {c : Counters} {o : List Cargo} {d : List Delivery} {q : List (LinkId × Packet)}
    {taken rest posted : Multiset (PeerAddress × Packet)} (hk : m.nodes[k]? = some n)
    (ht : n.quiet.Traffic n' c o d q) (hflight : m.inFlight = taken + rest)
    (hposted : ↑(q.filterMap (post? n)) = posted)
    (hbal : Balanced members n.counters c o d taken posted) :
    Books members (handled + card taken) ({ m with inFlight := rest }.collect k n') := by
  have ho : ({ m with inFlight := rest }.collect k n').originated = o + m.originated :=
    originated_collect ht
  have hd : ({ m with inFlight := rest }.collect k n').deliveries = d + m.deliveries :=
    deliveries_collect ht
  have hf : ({ m with inFlight := rest }.collect k n').inFlight = rest + posted := by
    rw [inFlight_collect ht, hposted]
  have hrelayed : ({ m with inFlight := rest }.collect k n').total (·.relayed.toNat) +
      n.counters.relayed.toNat = m.total (·.relayed.toNat) + c.relayed.toNat :=
    total_collect (fun c => c.relayed.toNat) hk ht
  refine ⟨?cargo, ?home, ?addressed, ?tame, ?sent, ?sentSum, ?received, ?receivedSum, ?relayed,
    ?relayed_le, ?pace⟩
  case cargo =>
    rw [ho, hd, hf, hb.cargo, hflight]
    simp only [Multiset.map_add]
    calc (o : Multiset Cargo) + (m.deliveries.map (·.cargo) +
          (taken.map (·.2.cargo) + rest.map (·.2.cargo)))
        = (↑o + taken.map (·.2.cargo)) + (m.deliveries.map (·.cargo) +
            rest.map (·.2.cargo)) := by ac_rfl
      _ = _ := by rw [hbal.cargo]; ac_rfl
  case home =>
    rw [hd]
    intro x hx
    rcases mem_add.mp hx with hx | hx
    · exact hbal.home x (mem_coe.mp hx)
    · exact hb.home x hx
  case addressed =>
    rw [hf]
    intro x hx
    rcases mem_add.mp hx with hx | hx
    · exact hb.addressed x (hflight ▸ mem_add.mpr (.inr hx))
    · exact hbal.addressed x hx
  case tame =>
    intro x hx
    rcases List.mem_or_eq_of_mem_set hx with hx | rfl
    · exact hb.tame x hx
    · rw [ht.same.2.2.2.2]
      exact hbal.tame
  case sent =>
    rw [ho, card_add, coe_card, add_comm]
    exact (total_collect_add hk ht hbal.sent).trans (congrArg (· + _) hb.sent)
  case sentSum =>
    rw [ho, Multiset.map_add, sum_add, map_coe, sum_coe, add_comm]
    exact (total_collect_add hk ht hbal.sentSum).trans (congrArg (· + _) hb.sentSum)
  case received =>
    rw [hd, card_add, coe_card, add_comm]
    exact (total_collect_add hk ht hbal.received).trans (congrArg (· + _) hb.received)
  case receivedSum =>
    rw [hd, Multiset.map_add, sum_add, map_coe, sum_coe, add_comm]
    exact (total_collect_add hk ht hbal.receivedSum).trans (congrArg (· + _) hb.receivedSum)
  -- hops are counted when a packet is relayed, and stay on its trace until it is delivered
  case relayed =>
    have hbefore := hb.relayed
    have hstep := hbal.relayed
    rw [hd, hf, Multiset.map_add, sum_add, map_coe, sum_coe, traced_add]
    rw [hflight, traced_add] at hbefore
    omega
  case relayed_le =>
    have hbefore := hb.relayed_le
    have hstep := hbal.relayed_le
    omega
  case pace =>
    have hbefore := hb.pace
    have hstep := hbal.pace
    rw [hflight, worth_add] at hbefore
    rw [ho, hf, card_add, coe_card, Nat.add_mul, worth_add]
    omega

/-! ### Balanced steps -/

variable {c : Counters} {e : Entry} {t : FingerTable}

/-- Originating a task's packets is balanced, if each is for another member. -/
theorem balanced_task (hl : Layout.Laid members size ts) (hnd : (members.map Entry.address).Nodup)
    (he : e ∈ members) (ht : ts.lookup e.id = some t) {ps : List Packet}
    (hps : ∀ p ∈ ps, p.dst ∈ members.map Entry.id ∧ p.dst ≠ e.id ∧ p.trace = [])
    {posted : List (PeerAddress × Packet)} (hposted : posted.map Prod.snd = ps)
    (hhop : ∀ x ∈ posted, ∃ hop, t.nextHop x.2.dst = some hop ∧ hop.entry.address = x.1)
    (hc : c.Tame) (hfew : c.sent.toNat + ps.length ≤ maxCount.toNat) :
    Balanced members c (ps.foldl (fun c p => c.recordSent p.payload) c) (ps.map Packet.cargo) [] 0
      posted := by
  obtain ⟨htame, hsent, hsum, hrec, hrecSum, hrel⟩ :=
    hc.foldl_recordSent (ps.map Packet.payload) (by rwa [List.length_map])
  rw [List.foldl_map] at htame hsent hsum hrec hrecSum hrel
  subst hposted
  have hmem : ∀ x ∈ posted, x.2.dst ∈ members.map Entry.id ∧ x.2.dst ≠ e.id ∧ x.2.trace = [] :=
    fun x hx => hps x.2 (List.mem_map_of_mem hx)
  refine ⟨?_, by simp, fun x hx => ⟨?_, (hmem x hx).1⟩, htame, ?_, ?_, ?_, ?_, ?_, ?_, ?_⟩
  · simp [Function.comp_def]
  · obtain ⟨hop, hh, hadd⟩ := hhop x hx
    exact ⟨hop.entry, hl.hop_mem he ht hh, hadd⟩
  · simpa using hsent
  · simpa [Packet.cargo, Function.comp_def] using hsum
  · simp [hrec]
  · simp [hrecSum]
  · have htrace : traced posted = 0 := by
      refine sum_eq_zero fun y hy => ?_
      obtain ⟨x, hx, rfl⟩ := mem_map.mp hy
      rw [(hmem x (mem_coe.mp hx)).2.2, List.length_nil]
    simp [hrel, htrace]
  · simp [hrel]
  · have hworth : ∀ y ∈ (posted : Multiset _).map (fun x => hopsLeft members x + 1),
        y ≤ members.length - 1 := by
      intro y hy
      obtain ⟨x, hx, rfl⟩ := mem_map.mp hy
      obtain ⟨hop, hh, hadd⟩ := hhop x hx
      obtain ⟨hdst, hne, -⟩ := hmem x hx
      obtain ⟨dst, hd, hdid⟩ := List.mem_map.mp hdst
      have hlt : Layout.distance members e.id dst.id < members.length :=
        clockwise_lt (Nat.lt_of_lt_of_le Nat.two_pos hl.several) _ _
      rw [hopsLeft_eq hnd (hl.hop_mem he ht hh) hadd, ← hdid]
      rw [← hdid] at hh hne
      have hcloser := hl.hop_closer hd he hne.symm ht hh
      omega
    have hsum := sum_le_card_nsmul _ _ hworth
    rw [card_map, coe_card, Nat.nsmul_eq_mul] at hsum
    rw [card_zero, zero_add, worth_zero, zero_add, List.length_map, List.length_map]
    exact hsum

/-- Delivering a packet is balanced. -/
theorem balanced_delivery {a : PeerAddress} {p : Packet} (hc : c.Tame)
    (hfew : c.received.toNat < maxCount.toNat) :
    Balanced members c (c.recordReceived p.payload) [] [⟨p.dst, p.cargo, p.trace.length⟩] {(a, p)}
      0 := by
  refine ⟨by simp, by simp [Packet.cargo], by simp, hc.recordReceived hfew p.payload, rfl, ?_,
    Counters.toNat_recordReceived hfew p.payload, ?_, ?_, ?_, ?_⟩
  · simp [Counters.recordReceived]
  · simpa [Packet.cargo] using hc.toInt_recordReceived hfew p.payload
  · simp [Counters.recordReceived]
  · simp [Counters.recordReceived]
  · simp

/-- Relaying a packet for another member is balanced. -/
theorem balanced_relay (hl : Layout.Laid members size ts) (hnd : (members.map Entry.address).Nodup)
    (he : e ∈ members) (ht : ts.lookup e.id = some t) {p : Packet} {hop : Hop}
    (hdst : p.dst ∈ members.map Entry.id) (hne : p.dst ≠ e.id) (hhop : t.nextHop p.dst = some hop)
    (hc : c.Tame) (hfew : c.relayed.toNat < maxCount.toNat) :
    Balanced members c c.recordRelayed [] [] {(e.address, p)}
      {(hop.entry.address, { p with trace := p.trace ++ [e.id] })} := by
  have hone := Counters.toNat_recordRelayed hfew
  have hmem := hl.hop_mem he ht hhop
  refine ⟨by simp [Packet.cargo], by simp, ?_, hc.recordRelayed, rfl, ?_, rfl, ?_, ?_, ?_, ?_⟩
  · intro x hx
    obtain rfl := mem_singleton.mp hx
    exact ⟨⟨hop.entry, hmem, rfl⟩, hdst⟩
  · simp [Counters.recordRelayed]
  · simp [Counters.recordRelayed]
  · simp [hone]
    omega
  · simp [hone]
  · obtain ⟨dst, hd, hdid⟩ := List.mem_map.mp hdst
    rw [← hdid] at hhop hne
    have hcloser := hl.hop_closer hd he hne.symm ht hhop
    have hfrom : hopsLeft members (e.address, p) = Layout.distance members e.id dst.id :=
      hdid ▸ hopsLeft_eq hnd he rfl
    have hto : hopsLeft members (hop.entry.address, { p with trace := p.trace ++ [e.id] }) =
        Layout.distance members hop.entry.id dst.id := hdid ▸ hopsLeft_eq hnd hmem rfl
    rw [worth_singleton, worth_singleton, card_singleton, hfrom, hto]
    omega

/-! ### Steps -/

variable {handled : Nat} {m m' m₀ : Mesh}

/-- The node at a position, and the member that it is. -/
theorem Assembled.member (ha : Assembled members ts m.nodes) {k : Nat} {n : Node}
    (hk : m.nodes[k]? = some n) :
    ∃ e ∈ members, ∃ t, ts.lookup e.id = some t ∧ Wired n e t (members.map Entry.id) := by
  have hlt := (List.getElem?_eq_some_iff.mp hk).1
  rw [ha.length] at hlt
  have he := List.getElem?_eq_getElem hlt
  exact ⟨_, List.mem_of_getElem? he, ha.wired k _ n he hk⟩

theorem le_total (f : Counters → Nat) {k : Nat} {n : Node} (hk : m.nodes[k]? = some n) :
    f n.counters ≤ m.total f :=
  List.le_sum_of_mem (List.mem_map_of_mem (List.mem_of_getElem? hk))

theorem Books.initiates (hl : Layout.Laid members size ts)
    (hnd : (members.map Entry.address).Nodup) (ha : Assembled members ts m.nodes)
    (hb : Books members handled m) (h : Initiates m m') (hfew : card m'.originated < 2 ^ 31) :
    Assembled members ts m'.nodes ∧ Books members handled m' := by
  obtain @⟨k, n, reaches, draws, link, far, count, hk⟩ := h
  obtain ⟨e, he, t, ht, hw⟩ := ha.member hk
  have hid : n.quiet.topology.id = some e.id := congrArg Topology.id hw.topology
  have htraffic := Node.initiateTask_traffic hid draws count
  have hbatch : ∀ p ∈ n.quiet.batch e.id draws count.toNat,
      p.dst ∈ members.map Entry.id ∧ p.dst ≠ e.id ∧ p.trace = [] := by
    intro p hp
    obtain ⟨-, hmem, hne, htrace⟩ := Node.mem_batch hp
    rw [show n.quiet.topology = _ from hw.topology] at hmem
    exact ⟨hmem, hne, htrace⟩
  have hhops : ∀ p ∈ n.quiet.batch e.id draws count.toNat, ∃ hop, t.nextHop p.dst = some hop := by
    intro p _
    obtain ⟨t', hop, ht', hhop, -⟩ := hl.hop_exists p.dst he
    obtain rfl : t = t' := Option.some.inj (ht.symm.trans ht')
    exact ⟨hop, hhop⟩
  obtain ⟨posted, hposted, hsnd, hhop⟩ := hw.posts hhops
  refine ⟨ha.set hk htraffic, ?_⟩
  have hsent : n.counters.sent.toNat + (n.quiet.batch e.id draws count.toNat).length ≤
      maxCount.toNat := by
    change card (m.collect k (n.quiet.initiateTask draws count)).originated < _ at hfew
    rw [originated_collect htraffic, card_add, coe_card, List.length_map] at hfew
    have h₁ := le_total (fun c => c.sent.toNat) hk
    have h₂ := hb.sent
    have hm := Counters.toNat_maxCount
    omega
  have hbal := balanced_task hl hnd he ht hbatch hsnd hhop
    (hb.tame n (List.mem_of_getElem? hk)) hsent
  exact hb.advance hk htraffic (zero_add _).symm (congrArg _ hposted) hbal

theorem Books.handles (hl : Layout.Laid members size ts)
    (hnd : (members.map Entry.address).Nodup) (ha : Assembled members ts m.nodes)
    (hb : Books members handled m) (h : Handles m m')
    (hfew : card m.originated + (handled + 1) < 2 ^ 31) :
    Assembled members ts m'.nodes ∧ Books members (handled + 1) m' := by
  obtain @⟨k, n, p, rest, reaches, draws, link, far, hk, hp⟩ := h
  obtain ⟨e, he, t, ht, hw⟩ := ha.member hk
  have hid : n.quiet.topology.id = some e.id := congrArg Topology.id hw.topology
  have htame := hb.tame n (List.mem_of_getElem? hk)
  have hdst := (hb.addressed (n.address, p) (hp ▸ mem_cons_self _ _)).2
  have hflight : m.inFlight = {(n.address, p)} + rest := hp.trans (singleton_add _ _).symm
  -- a packet that is home is delivered, and any other has a hop to go on to
  by_cases hhome : p.dst = e.id
  · have htraffic := Node.packetArrived_self (p := p) (hhome ▸ hid)
    have hfew : n.counters.received.toNat < maxCount.toNat := by
      have h₁ := le_total (fun c => c.received.toNat) hk
      have h₂ := hb.received
      have h₃ := congrArg card hb.cargo
      rw [card_add, card_map, card_map] at h₃
      have hm := Counters.toNat_maxCount
      omega
    exact ⟨ha.set hk htraffic, hb.advance hk htraffic hflight rfl (balanced_delivery htame hfew)⟩
  · obtain ⟨t', hop, ht', hhop, -⟩ := hl.hop_exists p.dst he
    obtain rfl : t = t' := Option.some.inj (ht.symm.trans ht')
    obtain ⟨link, hroute, hto⟩ := hw.route hhop
    have htraffic := Node.packetArrived_other (p := p) hid hhome hroute
    have hfew : n.counters.relayed.toNat < maxCount.toNat := by
      have h₁ := le_total (fun c => c.relayed.toNat) hk
      have h₂ := hb.relayed_le
      have hm := Counters.toNat_maxCount
      omega
    have hbal := balanced_relay hl hnd he ht hdst hhome hhop htame hfew
    rw [← hw.address] at hbal
    refine ⟨ha.set hk htraffic, hb.advance hk htraffic hflight ?_ hbal⟩
    simp [post?, hto]

/-! ### Runs -/

/-- Nothing is in the books at first. -/
theorem Ready.books (h : Ready members size ts m) : Books members 0 m := by
  have hzero : ∀ {α : Type} [AddCommMonoid α] (f : Counters → α), f .zero = 0 →
      m.total f = 0 := by
    intro α _ f hf
    refine List.sum_eq_zero fun x hx => ?_
    obtain ⟨n, hn, rfl⟩ := List.mem_map.mp hx
    rw [h.zero n hn, hf]
  have ho : m.originated = 0 := by rw [originated, h.history]; rfl
  have hd : m.deliveries = 0 := by rw [deliveries, h.history]; rfl
  have htame : ∀ n ∈ m.nodes, n.counters.Tame := fun n hn => h.zero n hn ▸ Counters.tame_zero
  refine ⟨?_, ?_, ?_, htame, ?_, ?_, ?_, ?_, ?_, ?_, ?_⟩
  · rw [ho, hd, h.inFlight]
    rfl
  · simp [hd]
  · simp [h.inFlight]
  · rw [ho]
    exact hzero _ rfl
  · rw [ho]
    exact hzero _ rfl
  · rw [hd]
    exact hzero _ rfl
  · rw [hd]
    exact hzero _ rfl
  · rw [hd, h.inFlight]
    exact hzero _ rfl
  · exact (hzero _ rfl).le
  · simp [ho, h.inFlight]

theorem card_originated_le (h : Initiates m m') : card m.originated ≤ card m'.originated := by
  obtain @⟨k, n, _, _, _, _, _, _⟩ := h
  simp [originated, collect]

/-- Handling a packet originates nothing. -/
theorem originated_eq (h : Handles m m') : m'.originated = m.originated := by
  obtain @⟨k, n, p, rest, _, _, _, _, _, _⟩ := h
  obtain ⟨c, d, q, ht⟩ := n.quiet.packetArrived_traffic p
  exact (originated_collect (m := { m with inFlight := rest }) ht).trans (zero_add _)

/-- The books are kept in every run with few enough packets. -/
theorem Run.books (h₀ : Ready members size ts m₀) (hrun : Run m₀ handled m)
    (hfew : card m.originated + handled < 2 ^ 31) :
    Assembled members ts m.nodes ∧ Books members handled m := by
  -- induction on the run, whose earlier meshes had originated and handled no more than `m`
  induction hrun with
  | start => exact ⟨h₀.assembled, h₀.books⟩
  | initiates _ hstep ih =>
    have hle := card_originated_le hstep
    obtain ⟨ha, hb⟩ := ih (by omega)
    exact hb.initiates h₀.laid h₀.addresses ha hstep (by omega)
  | handles _ hstep ih =>
    rw [originated_eq hstep] at hfew
    obtain ⟨ha, hb⟩ := ih (by omega)
    exact hb.handles h₀.laid h₀.addresses ha hstep (by omega)

/-- Whatever is in flight can be handled by the node that it was sent to. -/
theorem Books.can_handle (ha : Assembled members ts m.nodes) (hb : Books members handled m)
    {x : PeerAddress × Packet} (hx : x ∈ m.inFlight) : ∃ m', Handles m m' := by
  obtain ⟨⟨e, he, hadd⟩, -⟩ := hb.addressed x hx
  obtain ⟨k, hk⟩ := List.getElem?_of_mem he
  have hlt := (List.getElem?_eq_some_iff.mp hk).1
  rw [← ha.length] at hlt
  have hn := List.getElem?_eq_getElem hlt
  obtain ⟨t, -, hw⟩ := ha.wired k e _ hk hn
  obtain ⟨rest, hrest⟩ := exists_cons_of_mem hx
  have hat : m.inFlight = (m.nodes[k].address, x.2) ::ₘ rest := by rw [hw.address, hadd, hrest]
  exact ⟨_, .mk (fun _ => true) (.ofList []) 0 (.accepted "") hn hat⟩

/-- **No packet is lost, duplicated or altered.**  Let an overlay have been set up, and let nodes
handle tasks and packets in any order, fewer than `2 ^ 31` originated and handled in all.  What has
been originated is what has been delivered and what is in flight; the counters of packets sent are
those received and what is in flight, and so are the sums; the counters of packets relayed are the
hops of what has been delivered and is in flight; and every packet is delivered at its destination.

A packet is handled at most once for every other node.  Handling originates nothing, and something
can be handled as long as anything is in flight; so without further tasks all is delivered in the
end. -/
theorem packets_conserved (h₀ : Ready members size ts m₀) (hrun : Run m₀ handled m)
    (hfew : card m.originated + handled < 2 ^ 31) :
    m.originated = m.deliveries.map (·.cargo) + m.inFlight.map (·.2.cargo) ∧
    m.total (·.sent.toNat) = m.total (·.received.toNat) + card m.inFlight ∧
    m.total (·.sentSum.toInt) =
      m.total (·.receivedSum.toInt) + (m.inFlight.map (·.2.payload.toInt)).sum ∧
    m.total (·.relayed.toNat) =
      (m.deliveries.map (·.hops)).sum + (m.inFlight.map (·.2.trace.length)).sum ∧
    (∀ d ∈ m.deliveries, d.node = d.cargo.dst) ∧
    handled ≤ card m.originated * (members.length - 1) ∧
    (∀ m', Handles m m' → m'.originated = m.originated) ∧
    (m.inFlight = 0 ∨ ∃ m', Handles m m') := by
  obtain ⟨ha, hb⟩ := hrun.books h₀ hfew
  refine ⟨hb.cargo, ?_, ?_, hb.relayed, hb.home, ?_, fun _ => originated_eq, ?_⟩
  · rw [hb.sent, hb.received, hb.cargo, card_add, card_map, card_map]
  · rw [hb.sentSum, hb.receivedSum, hb.cargo, Multiset.map_add, sum_add, map_map, map_map]
    rfl
  · exact Nat.le_trans (Nat.le_add_right _ _) hb.pace
  · rcases m.inFlight.empty_or_exists_mem with hnone | ⟨x, hx⟩
    · exact .inl hnone
    · exact .inr (hb.can_handle ha hx)

/-- Three members. -/
def trio : List Entry :=
  [⟨⟨11, by decide⟩, ⟨"127.0.0.1", 7001⟩⟩, ⟨⟨40, by decide⟩, ⟨"127.0.0.1", 7002⟩⟩,
    ⟨⟨77, by decide⟩, ⟨"127.0.0.1", 7003⟩⟩]

/-- The member after the one at position `k`. -/
def trioNext (k : Nat) : Entry := trio.get ⟨(k + 1) % 3, Nat.mod_lt _ (by decide)⟩

/-- The tables of size one. -/
def trioTables : List (NodeId × FingerTable) :=
  trio.zipIdx.map fun (e, k) => (e.id, ⟨[trioNext k], by simp⟩)

/-- Three nodes, each of which has dialed the next. -/
def trioMesh : Mesh where
  nodes := trio.zipIdx.map fun (e, k) => {
    config := {}
    address := e.address
    cache := ⟨[((trioNext k).address, 0)]⟩
    links := ⟨[.dialed (trioNext k).address], []⟩
    topology := ⟨some e.id, ⟨[trioNext k], by simp⟩, trio.map Entry.id⟩
    counters := .zero
    state := .setupReported true
    setups := []
    effects := [] }
  inFlight := 0
  history := []

theorem ready_trio : Ready trio 1 trioTables trioMesh where
  laid := ⟨by decide, by decide, rfl⟩
  addresses := by decide
  assembled := by
    refine ⟨rfl, fun k e n he hn => ?_⟩
    match k, he, hn with
    | 0, he, hn | 1, he, hn | 2, he, hn =>
      cases he
      cases hn
      refine ⟨_, rfl, rfl, rfl, fun f hf => ?_⟩
      obtain rfl := List.mem_singleton.mp hf
      exact ⟨0, by decide, by decide⟩
  zero := by decide
  inFlight := rfl
  history := rfl

/-- The first of three nodes sends a packet to the last, which the second relays. -/
theorem packets_conserved_trio : ∃ m, Run trioMesh 2 m ∧ card m.originated + 2 < 2 ^ 31 ∧
    m.originated = m.deliveries.map (·.cargo) + m.inFlight.map (·.2.cargo) ∧
    m.total (·.relayed.toNat) =
      (m.deliveries.map (·.hops)).sum + (m.inFlight.map (·.2.trace.length)).sum := by
  have h₁ : Run trioMesh 0 _ := .initiates .start
    (.mk (k := 0) (fun _ => true) (.ofList [1, -7]) 0 (.accepted "") 1 rfl)
  have h₂ : Run trioMesh 1 _ := .handles h₁
    (.mk (k := 1) (fun _ => true) (.ofList []) 0 (.accepted "") rfl
      (show _ = (_, ⟨⟨77, by decide⟩, ⟨11, by decide⟩, -7, []⟩) ::ₘ 0 by decide))
  have h₃ : Run trioMesh 2 _ := .handles h₂
    (.mk (k := 2) (fun _ => true) (.ofList []) 0 (.accepted "") rfl
      (show _ = (_, ⟨⟨77, by decide⟩, ⟨11, by decide⟩, -7, [⟨40, by decide⟩]⟩) ::ₘ 0 by decide))
  have hall := packets_conserved ready_trio h₃ (by decide)
  exact ⟨_, h₃, by decide, hall.1, hall.2.2.2.1⟩

end RingOverlay.Mesh
