import RingOverlay.Proofs.Node.Reckoning
import RingOverlay.Proofs.Node.Seen

/-!
# Node — one fate for every packet

What a node does with a packet is done in several places: it counts, it logs, and it queues.
`Fated n me p fate hops sends n'` says that on the way from `n` to `n'` all of these agree on the
one fate of the packet `p`, and that nothing else has happened to the node.  Counts grow as far as a
summary can report them, and stay there (`Counters.Grows`).

* `fated_delivered`, `fated_relayed`, `fated_dropped`: the three ends of a packet that arrives.
* `packet_fate`: **a packet that arrives meets exactly one of them**, and which one is told by its
  destination, the finger that is chosen for it, and the connection to that finger.
-/

namespace RingOverlay

namespace Counters

/-- From `c` to `c'`, the traffic `v` is added: to the counts up to `maxCount`, where they stay, and
to the sums in 64 bits, where they wrap. -/
structure Grows (c : Counters) (v : Volume) (c' : Counters) : Prop where
  sent : c'.sent.toNat = min (c.sent.toNat + v.sent) maxCount.toNat
  received : c'.received.toNat = min (c.received.toNat + v.received) maxCount.toNat
  relayed : c'.relayed.toNat = min (c.relayed.toNat + v.relayed) maxCount.toNat
  sentSum : c'.sentSum.toInt = (c.sentSum.toInt + v.sentSum).bmod (2 ^ 64)
  receivedSum : c'.receivedSum.toInt = (c.receivedSum.toInt + v.receivedSum).bmod (2 ^ 64)

variable {c : Counters}

/-- Nothing is cut off from counts and sums that have room for what is added. -/
theorem Grows.exact {v : Volume} {c' : Counters} (h : c.Grows v c') :
    (c.sent.toNat + v.sent ≤ maxCount.toNat → c'.sent.toNat = c.sent.toNat + v.sent) ∧
    (c.received.toNat + v.received ≤ maxCount.toNat →
      c'.received.toNat = c.received.toNat + v.received) ∧
    (c.relayed.toNat + v.relayed ≤ maxCount.toNat →
      c'.relayed.toNat = c.relayed.toNat + v.relayed) ∧
    (FitsInt64 (c.sentSum.toInt + v.sentSum) → c'.sentSum.toInt = c.sentSum.toInt + v.sentSum) ∧
    (FitsInt64 (c.receivedSum.toInt + v.receivedSum) →
      c'.receivedSum.toInt = c.receivedSum.toInt + v.receivedSum) := by
  have hwrap : ∀ {i j : Int}, j = i.bmod (2 ^ 64) → FitsInt64 i → j = i := by
    rintro i j rfl ⟨hle, hlt⟩
    exact Int.bmod_eq_of_le (by omega) (by omega)
  exact ⟨fun hs => h.sent.trans (Nat.min_eq_left hs),
    fun hs => h.received.trans (Nat.min_eq_left hs),
    fun hs => h.relayed.trans (Nat.min_eq_left hs), hwrap h.sentSum, hwrap h.receivedSum⟩

/-- What is not counted stays as it is. -/
theorem toNat_min_of_le {n : UInt32} (h : n ≤ maxCount) :
    n.toNat = min (n.toNat + 0) maxCount.toNat :=
  (Nat.min_eq_left (UInt32.le_iff_toNat_le.mp h)).symm

theorem toInt_bmod_add_zero (s : Int64) : s.toInt = (s.toInt + 0).bmod (2 ^ 64) := by
  rw [Int.add_zero]
  exact (Int64.toInt_bmod s).symm

theorem toInt_add_bmod (s : Int64) (payload : Int32) :
    (s + payload.toInt64).toInt = (s.toInt + payload.toInt).bmod (2 ^ 64) := by
  rw [Int64.toInt_add, Int32.toInt_toInt64]

/-- The fate of one packet is counted as the traffic that it amounts to. -/
theorem Bounded.grows_record (h : c.Bounded) (fate : Fate) (payload : Int32) :
    c.Grows (fate.volume payload) (c.record fate payload) := by
  have hsent := toNat_min_of_le h.sent
  have hreceived := toNat_min_of_le h.received
  have hrelayed := toNat_min_of_le h.relayed
  have hsentSum := toInt_bmod_add_zero c.sentSum
  have hreceivedSum := toInt_bmod_add_zero c.receivedSum
  cases fate with
  | originated =>
    have hone := toNat_bump_min (UInt32.le_iff_toNat_le.mp h.sent)
    exact ⟨hone, hreceived, hrelayed, toInt_add_bmod c.sentSum payload, hreceivedSum⟩
  | delivered =>
    have hone := toNat_bump_min (UInt32.le_iff_toNat_le.mp h.received)
    exact ⟨hsent, hone, hrelayed, hsentSum, toInt_add_bmod c.receivedSum payload⟩
  | relayed =>
    have hone := toNat_bump_min (UInt32.le_iff_toNat_le.mp h.relayed)
    exact ⟨hsent, hreceived, hone, hsentSum, hreceivedSum⟩
  | dropped => exact ⟨hsent, hreceived, hrelayed, hsentSum, hreceivedSum⟩

end Counters

namespace Node

open NodeEffect

/-- From `n` to `n'`, the packet `p` meets its fate at the node `me`, after so many hops: it is
counted accordingly, that is logged once and nothing else for debugging, `sends` is sent, and
nothing else changes.  The counts of every node are bounded (`bounded_run`). -/
structure Fated (n : Node) (me : NodeId) (p : Packet) (fate : Fate) (hops : Nat)
    (sends : List (LinkId × Message)) (n' : Node) : Prop where
  counted : n'.counters = n.counters.record fate p.payload
  grows : n.counters.Bounded → n.counters.Grows (fate.volume p.payload) n'.counters
  logged : Shows debugged? n n' [.packet me fate p.src p.dst p.payload hops]
  sent : Shows sent? n n' sends
  kept : n' = { n with counters := n'.counters, effects := n'.effects }

variable {n n' : Node} {me : NodeId} {p : Packet}

/-- No packet meets two fates. -/
theorem Fated.unique {fate fate' : Fate} {hops hops' : Nat} {sends sends' : List (LinkId × Message)}
    (h : n.Fated me p fate hops sends n') (h' : n.Fated me p fate' hops' sends' n') :
    fate' = fate := by
  cases h'.logged.unique h.logged
  rfl

/-- A packet that is due at the node is delivered, and nothing is sent. -/
theorem fated_delivered (hid : n.topology.id = some me) (hdst : p.dst = me) :
    n.Fated me p .delivered p.trace.length [] (n.packetArrived p) := by
  let counted : Node := { n with counters := n.counters.record .delivered p.payload }
  have heq : n.packetArrived p =
      counted.log (.packet me .delivered p.src p.dst p.payload p.trace.length) := by
    simp only [packetArrived, hid, if_pos hdst]
    rfl
  have hcounted : ∀ {β : Type} {f : NodeEffect → Option β}, Shows f n counted [] := .of_same rfl
  rw [heq]
  exact ⟨rfl, fun hc => hc.grows_record _ _, hcounted.unseen (.emit counted _),
    hcounted.unseen (.emit_unseen counted rfl), rfl⟩

/-- A packet for another node is handed on with this node on its trace, and counted if it could be
queued. -/
theorem packetArrived_onward (hid : n.topology.id = some me) (hdst : p.dst ≠ me)
    {queued : Bool} (h : n.forward me { p with trace := p.trace ++ [me] } = (n', queued)) :
    n.packetArrived p =
      if queued then
        { n' with counters := n'.counters.recordRelayed }.log
          (.packet me .relayed p.src p.dst p.payload (p.trace.length + 1))
      else n' := by
  simp only [packetArrived, hid, if_neg hdst, h, List.length_append, List.length_singleton]
  cases queued <;> rfl

/-- If its route is open, it goes on over the connection of the route. -/
theorem fated_relayed (hid : n.topology.id = some me) (hdst : p.dst ≠ me) {link : LinkId}
    (hroute : n.route? p.dst = some link) :
    n.Fated me p .relayed (p.trace.length + 1)
      [(link, .dataPacket { p with trace := p.trace ++ [me] })] (n.packetArrived p) := by
  let onward : Packet := { p with trace := p.trace ++ [me] }
  let queued : Node := n.emit (.sent link (.dataPacket onward))
  let counted : Node := { queued with counters := n.counters.record .relayed p.payload }
  have hforward : n.forward me onward = (queued, true) := forward_of_route hroute
  have heq := packetArrived_onward hid hdst hforward
  have hcounted : ∀ {β : Type} {f : NodeEffect → Option β}, Shows f queued counted [] :=
    .of_same rfl
  have hlogged : Shows debugged? n counted [] := (Shows.emit_unseen n rfl).unseen hcounted
  have hsent : Shows sent? n counted [(link, .dataPacket onward)] :=
    (Shows.emit n _).trans hcounted
  rw [heq]
  exact ⟨rfl, fun hc => hc.grows_record _ _, hlogged.unseen (.emit counted _),
    hsent.trans (.emit_unseen counted rfl), rfl⟩

/-- If it has no route, it is dropped, and nothing is counted or sent. -/
theorem fated_dropped (hid : n.topology.id = some me) (hdst : p.dst ≠ me)
    (hroute : n.route? p.dst = none) :
    n.Fated me p .dropped (p.trace.length + 1) [] (n.packetArrived p) := by
  let onward : Packet := { p with trace := p.trace ++ [me] }
  have hlength : onward.trace.length = p.trace.length + 1 := List.length_append
  obtain ⟨e, hwarn, hforward⟩ := forward_dropped me (p := onward) hroute
  have heq := packetArrived_onward hid hdst hforward
  have hwarned : Shows debugged? n (n.log e) [] := .emit_unseen n (debugged?_of_warn hwarn)
  have hsilent : Shows sent? n (n.log e) [] := .emit_unseen n rfl
  rw [heq, hlength]
  exact ⟨rfl, fun hc => hc.grows_record _ _, hwarned.unseen (.emit _ _),
    hsilent.unseen (.emit_unseen _ rfl), rfl⟩

/-- **One fate for every packet.**  A node with an identifier delivers a packet that is due there;
relays one that is due elsewhere if it has a live connection to the finger that its table chooses,
over that connection and with itself added to the trace; and drops any other.  Counters, log and
connections agree on which of the three it is, and nothing else happens. -/
theorem packet_fate (hid : n.topology.id = some me) (reaches : PeerAddress → Bool) (draws : Draws)
    (link : LinkId) (far : Endpoint) (p : Packet) :
    (p.dst = me →
      n.Fated me p .delivered p.trace.length [] (n.handle reaches draws link far (.dataPacket p))) ∧
    (∀ hop onward, p.dst ≠ me → n.topology.table.nextHop p.dst = some hop →
      n.live? hop.entry.address = some onward →
        n.Fated me p .relayed (p.trace.length + 1)
          [(onward, .dataPacket ⟨p.dst, p.src, p.payload, p.trace ++ [me]⟩)]
          (n.handle reaches draws link far (.dataPacket p))) ∧
    (p.dst ≠ me →
      (∀ hop, n.topology.table.nextHop p.dst = some hop → n.live? hop.entry.address = none) →
        n.Fated me p .dropped (p.trace.length + 1) []
          (n.handle reaches draws link far (.dataPacket p))) ∧
    ∃! fate, ∃ hops sends,
      n.Fated me p fate hops sends (n.handle reaches draws link far (.dataPacket p)) := by
  refine ⟨fated_delivered hid, fun hop onward hdst hhop hlive => ?_, fun hdst hlost => ?_, ?_⟩
  · exact fated_relayed hid hdst (Option.bind_eq_some_iff.mpr ⟨hop, hhop, hlive⟩)
  · exact fated_dropped hid hdst (Option.bind_eq_none_iff.mpr hlost)
  · obtain ⟨fate, hops, sends, hfate⟩ : ∃ fate hops sends,
        n.Fated me p fate hops sends (n.packetArrived p) := by
      by_cases hdst : p.dst = me
      · exact ⟨_, _, _, fated_delivered hid hdst⟩
      · cases hroute : n.route? p.dst with
        | some onward => exact ⟨_, _, _, fated_relayed hid hdst hroute⟩
        | none => exact ⟨_, _, _, fated_dropped hid hdst hroute⟩
    refine ⟨fate, ⟨hops, sends, hfate⟩, ?_⟩
    rintro fate' ⟨hops', sends', hfate'⟩
    exact hfate.unique hfate'

/-- A node has the identifier 5 and two fingers, of which it could reach the first. -/
def halfway : Node :=
  let told (m : Message) : Action := .received (.ofList []) 1 m
  (join {} ⟨"127.0.0.1", 6000⟩).run
    [.accepted "127.0.0.1:40000", told (.registrationStatus 5 "welcome"),
      told (.nodeManifest
        ⟨[⟨9, ⟨"127.0.0.1", 7002⟩⟩, ⟨70, ⟨"127.0.0.1", 7070⟩⟩], by decide⟩ [5, 9, 70]),
      .dialed (fun a => a.port == 7002) 0]

/-- It delivers, relays or drops a packet from 3 that 70 has relayed, as that is for 5, 9 or 80. -/
theorem packet_fate_halfway :
    let arrived (dst : NodeId) : Node :=
      halfway.handle (fun _ => false) (.ofList []) 1 (.accepted "127.0.0.1:40000")
        (.dataPacket ⟨dst, 3, -7, [70]⟩)
    halfway.topology.id = some 5 ∧
    halfway.Fated 5 ⟨5, 3, -7, [70]⟩ .delivered 1 [] (arrived 5) ∧
    (arrived 5).counters.received.toNat = halfway.counters.received.toNat + 1 ∧
    halfway.Fated 5 ⟨9, 3, -7, [70]⟩ .relayed 2 [(2, .dataPacket ⟨9, 3, -7, [70, 5]⟩)]
      (arrived 9) ∧
    halfway.Fated 5 ⟨80, 3, -7, [70]⟩ .dropped 2 [] (arrived 80) := by
  intro arrived
  have hid : halfway.topology.id = some 5 := by decide
  have hfate (dst : NodeId) := packet_fate hid (fun _ => false) (.ofList []) 1
    (.accepted "127.0.0.1:40000") ⟨dst, 3, -7, [70]⟩
  have hdead : ∀ hop, halfway.topology.table.nextHop 80 = some hop →
      halfway.live? hop.entry.address = none := by
    intro hop h
    cases h
    decide
  have hdelivered : halfway.Fated 5 ⟨5, 3, -7, [70]⟩ .delivered 1 [] (arrived 5) := (hfate 5).1 rfl
  have hone := (hdelivered.grows (bounded_run _ _ _)).exact.2.1 (by decide)
  exact ⟨hid, hdelivered, hone,
    (hfate 9).2.1 (.exact ⟨9, ⟨"127.0.0.1", 7002⟩⟩) 2 (by decide) (by decide) (by decide),
    (hfate 80).2.2.1 (by decide) hdead⟩

/-- The node has received and relayed as many packets as a summary can report. -/
def replete : Node := { halfway with counters := ⟨0, maxCount, maxCount, 0, 0⟩ }

/-- It delivers and relays as before, and neither count grows. -/
theorem packet_fate_replete :
    let arrived (dst : NodeId) : Node :=
      replete.handle (fun _ => false) (.ofList []) 1 (.accepted "127.0.0.1:40000")
        (.dataPacket ⟨dst, 3, -7, [70]⟩)
    replete.topology.id = some 5 ∧ replete.live? ⟨"127.0.0.1", 7002⟩ = some 2 ∧
    (arrived 5).counters.received.toNat ≠ replete.counters.received.toNat + 1 ∧
    .logged (.packet 5 .relayed 3 9 (-7) 2) ∈ (arrived 9).effects ∧
    (arrived 9).counters.relayed.toNat ≠ replete.counters.relayed.toNat + 1 := by
  decide

end Node

end RingOverlay
