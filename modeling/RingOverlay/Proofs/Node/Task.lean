import RingOverlay.Proofs.Node.Account
import RingOverlay.Proofs.Node.Fate
import RingOverlay.Proofs.Ring.Draws

/-!
# Node — what comes of a task

A task has a node draw, for each packet, a destination and then a payload from one generator.  So
the `k`-th packet of its batch is told by the values that the generator yields at `2 * k` and
`2 * k + 1` (`getElem?_drafts`), whatever becomes of the packets before it: what is drawn, counted
and logged does not depend on what can be handed on.

* `drafted_batch`: the batch is as long as the task says if there is anybody else in the overlay,
  and empty otherwise, and it has the drawn destinations and payloads in order.
* `counted_foldl`: a batch is counted as sent, and as nothing else.
* `task_accounted`: **a task originates its batch**, counts it, sends the packets that have a route
  and then one notice that it is done.
-/

namespace RingOverlay

/-! ### What a generator yields -/

namespace Draws

/-- After a destination and a payload, the next two values follow. -/
theorem nth_payload (d : Draws) (n k : Nat) : (d.below n).2.payload.2.nth k = d.nth (k + 2) := by
  change d.draw.2.draw.2.nth k = d.nth (k + 2)
  rw [nth_draw, nth_draw]

end Draws

/-! ### Counting a batch -/

namespace Counters

/-- From `c` to `c'`, packets with these payloads are counted as sent, and nothing else is counted.
The sum is exact as long as there are fewer packets than a counter counts to. -/
structure Counted (c : Counters) (payloads : List Int32) (c' : Counters) : Prop where
  received : c'.received = c.received
  relayed : c'.relayed = c.relayed
  receivedSum : c'.receivedSum = c.receivedSum
  sentSum : c'.sentSum = c.sentSum + Int64.ofInt (payloads.map Int32.toInt).sum
  sent : c.sent.toNat + payloads.length < 2 ^ 31 → c'.sent.toNat = c.sent.toNat + payloads.length
  exact : c.sent.toNat + payloads.length < 2 ^ 31 → c.Tame →
    c'.sentSum.toInt = c.sentSum.toInt + (payloads.map Int32.toInt).sum

theorem counted_foldl (payloads : List Int32) (c : Counters) :
    c.Counted payloads (payloads.foldl Counters.recordSent c) := by
  have hexact (ps : List Int32) {c : Counters} (hfew : c.sent.toNat + ps.length < 2 ^ 31)
      (ht : c.Tame) :
      (ps.foldl Counters.recordSent c).sentSum.toInt = c.sentSum.toInt + (ps.map Int32.toInt).sum :=
    have hle : c.sent.toNat + ps.length ≤ maxCount.toNat := by rw [toNat_maxCount]; omega
    (ht.foldl_recordSent ps hle).2.2.1
  induction payloads generalizing c with
  | nil => exact ⟨rfl, rfl, rfl, (Int64.add_zero _).symm, fun _ => rfl, hexact []⟩
  | cons p payloads ih =>
    have hrest := ih (c.recordSent p)
    refine ⟨hrest.received, hrest.relayed, hrest.receivedSum, ?_, fun hfew => ?_,
      hexact (p :: payloads)⟩
    · calc (payloads.foldl Counters.recordSent (c.recordSent p)).sentSum
        _ = c.sentSum + p.toInt64 + Int64.ofInt (payloads.map Int32.toInt).sum := hrest.sentSum
        _ = c.sentSum + Int64.ofInt (p.toInt + (payloads.map Int32.toInt).sum) := by
          rw [Int64.ofInt_add, Int64.ofInt_int32ToInt, Int64.add_assoc]
    · rw [List.length_cons] at hfew ⊢
      have hlt : c.sent.toNat < maxCount.toNat := by rw [toNat_maxCount]; omega
      have hone := toNat_recordSent hlt p
      have hsent := hrest.sent (by omega)
      rw [List.foldl_cons]
      omega

end Counters

namespace Node

open NodeEffect

variable {n n' : Node} {id : NodeId}

/-- The counters of a node are tame as long as no more has passed than they can count. -/
theorem tame_of_run {config : NodeConfig} {address : PeerAddress} {as : List Action}
    (hn : (join config address).run as = n) (hfew : n.passed.Small) : n.counters.Tame := by
  subst hn
  have hjoined := accounted_join config address
  exact ((settles_run (join config address) as).accounted 0 hfew hjoined).tame

/-! ### Batches -/

/-- The packets `ps` are those of a task of `count` packets for the node `id`, which draws from
`draws` among `ids`, in the order in which they are drawn. -/
structure Drafted (id : NodeId) (ids : List NodeId) (draws : Draws) (count : Nat)
    (ps : List Packet) : Prop where
  full : (∃ other ∈ ids, other ≠ id) → ps.length = count
  empty : (∀ other ∈ ids, other = id) → ps = []
  fresh : ∀ p ∈ ps, p.src = id ∧ p.dst ∈ ids ∧ p.dst ≠ id ∧ p.trace = []
  dst : ∀ k p, ps[k]? = some p →
    (ids.filter (· != id))[(draws.nth (2 * k) % (ids.filter (· != id)).length).toNat]? = some p.dst
  payload : ∀ k p, ps[k]? = some p → p.payload = Int32.ofInt (draws.nth (2 * k + 1))

/-- The `k`-th packet is told by two draws. -/
theorem getElem?_drafts {others : List NodeId} {count k : Nat} {draws : Draws} {p : Packet}
    (h : (drafts id others count draws)[k]? = some p) :
    others[(draws.nth (2 * k) % others.length).toNat]? = some p.dst ∧
      p.payload = Int32.ofInt (draws.nth (2 * k + 1)) := by
  induction count generalizing draws k with
  | zero => simp [drafts] at h
  | succ count ih =>
    simp only [drafts] at h
    split at h
    · simp at h
    · next dst hdst =>
      cases k with
      | zero =>
        cases h
        constructor
        · rw [← hdst, Draws.below, Draws.draw_fst]
        · rw [← Draws.nth_draw, ← Draws.draw_fst]
          rfl
      | succ k =>
        have htail := ih h
        rwa [Draws.nth_payload, Draws.nth_payload] at htail

/-- There is nobody to send to exactly if no other node is in the overlay. -/
theorem others_eq_nil_iff {ids : List NodeId} :
    ids.filter (· != id) = [] ↔ ∀ other ∈ ids, other = id := by
  simp [List.filter_eq_nil_iff]

theorem drafted_batch (n : Node) (id : NodeId) (draws : Draws) (count : Nat) :
    Drafted id n.topology.nodeIds draws count (n.batch id draws count) := by
  have hmem : ∀ p ∈ n.batch id draws count,
      p.src = id ∧ p.dst ∈ n.topology.nodeIds ∧ p.dst ≠ id ∧ p.trace = [] :=
    fun p hp => mem_batch hp
  by_cases hnone : n.topology.nodeIds.filter (· != id) = []
  · have hbatch : n.batch id draws count = [] := if_pos hnone
    rw [hbatch] at hmem ⊢
    refine ⟨fun ⟨other, hother, hne⟩ => ?_, fun _ => rfl, hmem, fun k p h => by simp at h,
      fun k p h => by simp at h⟩
    exact absurd (others_eq_nil_iff.mp hnone other hother) hne
  · have hbatch : n.batch id draws count =
        drafts id (n.topology.nodeIds.filter (· != id)) count draws := if_neg hnone
    rw [hbatch] at hmem ⊢
    exact ⟨fun _ => length_drafts hnone count draws,
      fun hall => absurd (others_eq_nil_iff.mpr hall) hnone, hmem,
      fun k p h => (getElem?_drafts h).1, fun k p h => (getElem?_drafts h).2⟩

/-! ### Shipping -/

namespace Traffic

variable {c : Counters} {o : List Cargo} {d : List Delivery} {q : List (LinkId × Packet)}

/-- The registry is where it was. -/
theorem registry?_eq (h : Traffic n n' c o d q) : n'.registry? = n.registry? := by
  obtain ⟨es, rfl, -⟩ := h
  rfl

theorem originated (h : Traffic n n' c o d q) : Shows originated? n n' o := by
  obtain ⟨es, rfl, ho, -⟩ := h
  exact ⟨es, rfl, ho⟩

theorem kept (h : Traffic n n' c o d q) :
    n' = { n with counters := c, effects := n'.effects } := by
  obtain ⟨es, rfl, -⟩ := h
  rfl

end Traffic

theorem sent_ship (n : Node) (p : Packet) :
    Shows sent? n (n.ship p) ((n.route? p.dst).map fun link => (link, .dataPacket p)).toList := by
  let logged : Node := { n with counters := n.counters.recordSent p.payload }.log
    (.packet p.src .originated p.src p.dst p.payload 0)
  have hlogged : Shows sent? n logged [] := ⟨[_], rfl, rfl⟩
  exact hlogged.unseen (sent_forward logged p.src p)

/-- Of a batch, the packets that have a route are sent, each along its own. -/
theorem sent_foldl_ship (ps : List Packet) (n : Node) :
    Shows sent? n (ps.foldl ship n)
      (ps.filterMap fun p => (n.route? p.dst).map fun link => (link, .dataPacket p)) := by
  induction ps generalizing n with
  | nil => exact .refl n
  | cons p ps ih =>
    have hp := sent_ship n p
    have hps := ih (n.ship p)
    -- the first packet takes away no route, so the others are routed as from `n`
    simp only [(ship_traffic n p).route?_eq] at hps
    have hall := hp.trans hps
    cases hroute : n.route? p.dst with
    | none => simpa [hroute] using hall
    | some link => simpa [hroute] using hall

/-! ### Tasks -/

/-- From `n` to `n'`, the node `id` originates the packets `ps` and reports that it has: all are
counted as sent, those that have a route are sent, in order, and the registry is told once, if it
can be reached.  Nothing else changes. -/
structure Accomplishes (n : Node) (id : NodeId) (ps : List Packet) (n' : Node) : Prop where
  originated : Shows originated? n n' (ps.map Packet.cargo)
  counted : n.counters.Counted (ps.map Packet.payload) n'.counters
  sent : Shows sent? n n'
    ((ps.filterMap fun p => (n.route? p.dst).map fun link => (link, .dataPacket p)) ++
      (Option.map (fun link => (link, .taskFinished n.address id)) n.registry?).toList)
  kept : n' = { n with counters := n'.counters, effects := n'.effects }

/-- **A task is accounted for.**  A node with an identifier originates as many packets as it is told
to, for destinations drawn from the others in the overlay, or none if there are no others; it counts
every one, sends those that have a route, and reports when it is done. -/
theorem task_accounted (hid : n.topology.id = some id) (reaches : PeerAddress → Bool)
    (draws : Draws) (link : LinkId) (far : Endpoint) (count : UInt32) :
    Drafted id n.topology.nodeIds draws count.toNat (n.batch id draws count.toNat) ∧
      n.Accomplishes id (n.batch id draws count.toNat)
        (n.handle reaches draws link far (.taskInitiate count)) := by
  let ps := n.batch id draws count.toNat
  let shipped := ps.foldl ship n
  have htraffic := initiateTask_traffic hid draws count
  have hships := foldl_ship_traffic ps n
  have hcounted := Counters.counted_foldl (ps.map Packet.payload) n.counters
  rw [List.foldl_map, ← htraffic.same.2.2.2.2] at hcounted
  have hreported : Shows sent? shipped (n.initiateTask draws count)
      (Option.map (fun link => (link, .taskFinished n.address id)) n.registry?).toList := by
    rw [initiateTask_eq hid, ← hships.registry?_eq, ← hships.same.1]
    exact (Shows.emit_unseen shipped rfl).unseen (sent_sendToRegistry _ _)
  refine ⟨drafted_batch n id draws count.toNat, htraffic.originated, hcounted,
    (sent_foldl_ship ps n).trans hreported, ?_⟩
  have hkept := htraffic.kept
  rwa [← htraffic.same.2.2.2.2] at hkept

/-- Told to originate three packets, a node with a single reached finger draws one for it and two
for the node that it cannot reach; it counts all three, sends the one, and reports. -/
theorem task_accounted_halfway :
    let done : Node := halfway.handle (fun _ => false) (.ofList [0, 10, 1, -20, 5, 30]) 1
      (.accepted "127.0.0.1:40000") (.taskInitiate 3)
    let ps : List Packet := [⟨9, 5, 10, []⟩, ⟨70, 5, -20, []⟩, ⟨70, 5, 30, []⟩]
    Drafted 5 [5, 9, 70] (.ofList [0, 10, 1, -20, 5, 30]) 3 ps ∧
    halfway.Accomplishes 5 ps done ∧
    done.counters.sent.toNat = 3 ∧ done.counters.sentSum.toInt = 20 ∧
    Shows sent? halfway done
      [(2, .dataPacket ⟨9, 5, 10, []⟩), (0, .taskFinished ⟨"127.0.0.1", 6000⟩ 5)] := by
  intro done ps
  have hbatch : halfway.batch 5 (.ofList [0, 10, 1, -20, 5, 30]) 3 = ps := by decide
  have htame : halfway.counters.Tame := tame_of_run rfl ⟨by decide, by decide, by decide⟩
  have hid : halfway.topology.id = some 5 := by decide
  obtain ⟨hdrafted, hdone⟩ := task_accounted hid (fun _ => false)
    (.ofList [0, 10, 1, -20, 5, 30]) 1 (.accepted "127.0.0.1:40000") 3
  change Drafted 5 [5, 9, 70] _ 3 (halfway.batch 5 _ 3) at hdrafted
  change halfway.Accomplishes 5 (halfway.batch 5 _ 3) done at hdone
  rw [hbatch] at hdrafted hdone
  exact ⟨hdrafted, hdone, hdone.counted.sent (by decide), hdone.counted.exact (by decide) htame,
    hdone.sent⟩

end Node

end RingOverlay
