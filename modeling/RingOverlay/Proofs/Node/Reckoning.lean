import Mathlib.Algebra.BigOperators.Group.List.Basic
import Mathlib.Tactic.Abel
import RingOverlay.Proofs.Node.Setup
import RingOverlay.Proofs.Node.Traffic
import RingOverlay.Proofs.Traffic.Volume

/-!
# Node — where its counts are

The volume of traffic is measured in three places: in the packets that a node logs (`passed`), in
the summaries that it has queued (`reported`), and in its counters (`Counters.volume`).  A node is
*accounted* for up to a volume that was lost if what has passed is what it has reported, what it
still counts, and what was lost.

Most of what a node does is *silent*: it neither counts nor logs a packet, nor reports any.  A
packet is counted as it is logged (`settles_count`), and a summary takes the counters with it; but
the counters are taken before the summary is known to be queued, so that a request whose connection
has closed *forfeits* them.

* `settles_act`: what an action loses is what it forfeits.
* `counts_accounted`: **what has passed is reported, counted, or forfeited**, so that nothing is
  lost exactly if whatever is asked for on a closed connection is asked of counters that have
  counted nothing.
-/

namespace RingOverlay

/-- The traffic that the fate of one packet amounts to. -/
def Fate.volume (fate : Fate) (payload : Int32) : Volume :=
  match fate with
  | originated => ⟨1, 0, 0, payload.toInt, 0⟩
  | delivered => ⟨0, 1, 0, 0, payload.toInt⟩
  | relayed => ⟨0, 0, 1, 0, 0⟩
  | dropped => 0

/-- The traffic that a message reports. -/
def Message.volume : Message → Volume
  | trafficSummaryReport s => s.volume
  | _ => 0

namespace NodeEffect

/-- The traffic that an effect logs. -/
def passed : NodeEffect → Volume
  | logged (.packet _ fate _ _ payload _) => fate.volume payload
  | _ => 0

/-- The traffic that an effect reports. -/
def reported : NodeEffect → Volume
  | sent _ m => m.volume
  | _ => 0

end NodeEffect

/-! ### Counting -/

namespace Counters

variable {c : Counters}

/-- The counters after the fate of one packet. -/
def record (c : Counters) (fate : Fate) (payload : Int32) : Counters :=
  match fate with
  | .originated => c.recordSent payload
  | .delivered => c.recordReceived payload
  | .relayed => c.recordRelayed
  | .dropped => c

theorem Bounded.record (h : c.Bounded) (fate : Fate) (payload : Int32) :
    (c.record fate payload).Bounded := by
  cases fate with
  | originated => exact ⟨bump_le _, h.received, h.relayed⟩
  | delivered => exact ⟨h.sent, bump_le _, h.relayed⟩
  | relayed => exact ⟨h.sent, h.received, bump_le _⟩
  | dropped => exact h

/-- The fate of a packet is counted exactly, as long as the counters can count it. -/
theorem Tame.record (ht : c.Tame) {fate : Fate} {payload : Int32}
    (h : (c.volume + fate.volume payload).Small) :
    (c.record fate payload).Tame ∧
      (c.record fate payload).volume = c.volume + fate.volume payload := by
  cases fate with
  | originated => exact ht.counts_sent h
  | delivered => exact ht.counts_received h
  | relayed => exact ht.counts_relayed h
  | dropped => exact ⟨ht, (add_zero c.volume).symm⟩

end Counters

namespace Node

variable {n n₁ n₂ : Node} {lost lost₁ lost₂ : Volume}

/-- The traffic that a node has logged. -/
def passed (n : Node) : Volume := (n.effects.map NodeEffect.passed).sum

/-- The traffic that a node has reported. -/
def reported (n : Node) : Volume := (n.effects.map NodeEffect.reported).sum

theorem passed_emit (n : Node) (e : NodeEffect) : (n.emit e).passed = e.passed + n.passed := rfl

theorem reported_emit (n : Node) (e : NodeEffect) : (n.emit e).reported = e.reported + n.reported :=
  rfl

/-- What has passed is what was reported, what is still counted, and what was lost. -/
structure Accounted (n : Node) (lost : Volume) : Prop where
  tame : n.counters.Tame
  total : n.passed = n.reported + n.counters.volume + lost

/-- From `n` to `n₁`, as much is lost as given, and nothing that has passed is forgotten. -/
structure Settles (n n₁ : Node) (lost₁ : Volume) : Prop where
  bounded : n.counters.Bounded → n₁.counters.Bounded
  small : n₁.passed.Small → n.passed.Small
  accounted : ∀ lost, n₁.passed.Small → n.Accounted lost → n₁.Accounted (lost + lost₁)

/-- From `n` to `n₁`, nothing is counted, no packet is logged and nothing is reported. -/
structure Silent (n n₁ : Node) : Prop where
  counters : n₁.counters = n.counters
  passed : n₁.passed = n.passed
  reported : n₁.reported = n.reported

namespace Settles

theorem trans (h₁ : Settles n n₁ lost₁) (h₂ : Settles n₁ n₂ lost₂) :
    Settles n n₂ (lost₁ + lost₂) := by
  refine ⟨fun h => h₂.bounded (h₁.bounded h), fun h => h₁.small (h₂.small h), fun lost h hn => ?_⟩
  rw [← add_assoc]
  exact h₂.accounted _ h (h₁.accounted _ (h₂.small h) hn)

end Settles

namespace Silent

theorem settles (h : Silent n n₁) : Settles n n₁ 0 := by
  refine ⟨fun hc => h.counters ▸ hc, fun hs => h.passed ▸ hs, fun lost _ hn => ⟨?_, ?_⟩⟩
  · rw [h.counters]
    exact hn.tame
  · rw [h.passed, h.reported, h.counters, add_zero]
    exact hn.total

theorem refl (n : Node) : Silent n n := ⟨rfl, rfl, rfl⟩

theorem trans (h : Silent n n₁) (h' : Silent n₁ n₂) : Silent n n₂ :=
  ⟨h'.counters.trans h.counters, h'.passed.trans h.passed, h'.reported.trans h.reported⟩

theorem emit (n : Node) {e : NodeEffect} (hp : e.passed = 0) (hr : e.reported = 0) :
    Silent n (n.emit e) :=
  ⟨rfl, by rw [passed_emit, hp, zero_add], by rw [reported_emit, hr, zero_add]⟩

/-- Nothing but the counters and the effects of a node matters. -/
theorem of_same (hcounters : n₁.counters = n.counters) (heffects : n₁.effects = n.effects) :
    Silent n n₁ :=
  ⟨hcounters, congrArg (fun es => (es.map NodeEffect.passed).sum) heffects,
    congrArg (fun es => (es.map NodeEffect.reported).sum) heffects⟩

/-- An event that is about no packet, or about one that is dropped. -/
theorem log (n : Node) {e : NodeEvent} (hp : (NodeEffect.logged e).passed = 0) :
    Silent n (n.log e) :=
  emit n hp rfl

theorem notice (n : Node) (line : String) : Silent n (n.notice line) := by
  unfold Node.notice
  split
  · exact emit n rfl rfl
  · exact refl n

theorem setState (n : Node) (s : NodeState) (note : String) : Silent n (n.setState s note) := by
  have hset : Silent n { n with state := s } := of_same rfl rfl
  exact hset.trans (log _ rfl)

theorem sendToRegistry (n : Node) {m : Message} (hm : m.volume = 0) :
    Silent n (n.sendToRegistry m) := by
  unfold Node.sendToRegistry
  split
  · exact emit n rfl hm
  · exact log n rfl

/-! ### Silent handlers -/

theorem registrationStatus (n : Node) (status : Int32) (info : String) :
    Silent n (n.registrationStatus status info) := by
  unfold Node.registrationStatus
  split
  · exact (notice n info).trans (log _ rfl)
  · split
    · next id _ =>
      have hnamed : Silent n { n with topology := { n.topology with id := some id } } :=
        of_same rfl rfl
      exact (hnamed.trans (notice _ info)).trans (setState _ .registered info)
    · exact log n rfl

theorem leaveRegistry (n : Node) : Silent n n.leaveRegistry := by
  unfold Node.leaveRegistry
  split
  · exact of_same rfl rfl
  · exact refl n

theorem deregistrationStatus (n : Node) (status : Int32) (info : String) :
    Silent n (n.deregistrationStatus status info) := by
  unfold Node.deregistrationStatus
  simp only
  split
  · exact (notice n info).trans (log _ rfl)
  · have hgone : Silent n { n.notice info with topology := .none } :=
      (notice n info).trans (of_same rfl rfl)
    exact (hgone.trans (leaveRegistry _)).trans (setState _ .unregistered info)

theorem dialEach (reaches : PeerAddress → Bool) (as : List PeerAddress) (n : Node) :
    Silent n (dialEach reaches as n).1 :=
  dialEach_induction refl trans (fun _ _ => of_same rfl rfl) (fun n _ => log n rfl) reaches as n

theorem takeUp (n : Node) (link : LinkId) (table : FingerTable) (nodeIds : List NodeId) :
    Silent n (n.takeUp link table nodeIds) := by
  have hkept : Silent n { n with topology := ⟨n.topology.id, table, nodeIds⟩ } := of_same rfl rfl
  have hlearned : Silent n (n.learn table nodeIds) := hkept.trans (setState _ _ _)
  exact hlearned.trans (of_same rfl rfl)

theorem reportSetup (n : Node) (outcome : Int32 × String) : Silent n (n.reportSetup outcome) := by
  have hconnected : Silent n (n.connect outcome) := setState n _ _
  rw [reportSetup_eq]
  exact (hconnected.trans (sendToRegistry _ rfl)).trans (setState _ _ _)

theorem finishSetup (n : Node) (reaches : PeerAddress → Bool) (k : Nat) :
    Silent n (n.finishSetup reaches k) := by
  cases hk : n.setups[k]? with
  | none =>
    rw [finishSetup_of_none hk]
    exact refl n
  | some s =>
    have herased : Silent n { n with setups := n.setups.eraseIdx k } := of_same rfl rfl
    rw [finishSetup_of_some hk]
    exact (herased.trans (dialEach reaches s.dials _)).trans (reportSetup _ _)

/-- A packet that is handed on, or dropped, is counted by whoever hands it on. -/
theorem forward (n : Node) (me : NodeId) (p : Packet) : Silent n (n.forward me p).1 := by
  unfold Node.forward
  split
  · exact (log n rfl).trans (log _ rfl)
  · simp only
    split
    · exact (log n rfl).trans (log _ rfl)
    · exact emit n rfl rfl

theorem exit (n : Node) : Silent n n.exit.1 := by
  unfold Node.exit
  split
  · exact refl n
  · split
    · exact refl n
    · exact (emit n rfl rfl).trans (log _ rfl)

end Silent

/-! ### Packets and summaries -/

/-- A packet is counted as its fate is logged. -/
theorem settles_count (n : Node) (me : NodeId) (fate : Fate) (src dst : NodeId) (payload : Int32)
    (hops : Nat) :
    Settles n ({ n with counters := n.counters.record fate payload }.log
      (.packet me fate src dst payload hops)) 0 := by
  have hpassed : ({ n with counters := n.counters.record fate payload }.log
      (.packet me fate src dst payload hops)).passed = fate.volume payload + n.passed := rfl
  have hreported : ({ n with counters := n.counters.record fate payload }.log
      (.packet me fate src dst payload hops)).reported = n.reported := zero_add _
  refine ⟨fun h => h.record fate payload, fun h => ?_, fun lost h hn => ?_⟩
  · rw [hpassed, add_comm] at h
    exact h.of_add
  · -- what is counted is part of what has passed, so it is small if that is
    have hsplit : fate.volume payload + n.passed =
        n.counters.volume + fate.volume payload + (n.reported + lost) := by
      rw [hn.total]
      abel
    rw [hpassed, hsplit] at h
    obtain ⟨htame, hvolume⟩ := hn.tame.record h.of_add
    refine ⟨htame, ?_⟩
    rw [hpassed, hreported, hsplit]
    change _ = n.reported + (n.counters.record fate payload).volume + (lost + 0)
    rw [hvolume]
    abel

theorem settles_ship (n : Node) (p : Packet) : Settles n (n.ship p) 0 :=
  (settles_count n p.src .originated p.src p.dst p.payload 0).trans (Silent.forward _ _ _).settles

theorem settles_foldl_ship (ps : List Packet) (n : Node) : Settles n (ps.foldl ship n) 0 := by
  induction ps generalizing n with
  | nil => exact (Silent.refl n).settles
  | cons p ps ih => exact (settles_ship n p).trans (ih _)

theorem settles_initiateTask (n : Node) (draws : Draws) (count : UInt32) :
    Settles n (n.initiateTask draws count) 0 := by
  cases hid : n.topology.id with
  | none =>
    simp only [initiateTask, hid]
    exact (Silent.log n rfl).settles
  | some id =>
    rw [initiateTask_eq hid]
    exact (settles_foldl_ship _ n).trans
      ((Silent.log _ rfl).trans (Silent.sendToRegistry _ rfl)).settles

theorem settles_packetArrived (n : Node) (p : Packet) : Settles n (n.packetArrived p) 0 := by
  cases hid : n.topology.id with
  | none =>
    simp only [packetArrived, hid]
    exact (Silent.log n rfl).settles
  | some me =>
    have hfwd := Silent.forward n me { p with trace := p.trace ++ [me] }
    simp only [packetArrived, hid]
    split
    · exact settles_count n me .delivered p.src p.dst p.payload p.trace.length
    · split
      · next h =>
        rw [h] at hfwd
        exact hfwd.settles.trans (settles_count _ me .relayed _ _ p.payload _)
      · next h =>
        rw [h] at hfwd
        exact hfwd.settles

/-- The counters start over with a summary that is sent, which says what they were. -/
theorem settles_report (n : Node) (link : LinkId) (id : NodeId) :
    Settles n ({ n with counters := .zero }.emit
      (.sent link (.trafficSummaryReport (n.counters.summary id)))) 0 := by
  have hreported : ({ n with counters := .zero }.emit
      (.sent link (.trafficSummaryReport (n.counters.summary id)))).reported =
      n.counters.volume + n.reported := rfl
  have hpassed : ({ n with counters := .zero }.emit
      (.sent link (.trafficSummaryReport (n.counters.summary id)))).passed = n.passed :=
    zero_add _
  refine ⟨fun _ => Counters.bounded_zero, fun h => hpassed ▸ h,
    fun lost _ hn => ⟨Counters.tame_zero, ?_⟩⟩
  rw [hpassed, hreported, hn.total]
  change _ = n.counters.volume + n.reported + 0 + (lost + 0)
  abel

/-- Or with one that cannot be sent, and then nothing says what they were. -/
theorem settles_forget (n : Node) (error : String) :
    Settles n ({ n with counters := .zero }.log (.summaryUnsent error)) n.counters.volume := by
  have hlogged := Silent.log { n with counters := .zero } (e := .summaryUnsent error) rfl
  refine ⟨fun _ => Counters.bounded_zero, fun h => hlogged.passed ▸ h,
    fun lost _ hn => ⟨Counters.tame_zero, ?_⟩⟩
  rw [hlogged.passed, hlogged.reported]
  change n.passed = n.reported + 0 + (lost + n.counters.volume)
  rw [hn.total]
  abel

/-- What an action forfeits: the counters, if a summary is asked for on a connection that has
closed. -/
def forfeit (n : Node) : Action → Volume
  | .received _ link .trafficSummaryRequest =>
    if n.topology.id.isSome ∧ (n.read? link).isSome ∧ n.links.isOpen link = false then
      n.counters.volume
    else 0
  | _ => 0

/-- What a sequence of actions forfeits. -/
def forfeited : Node → List Action → Volume
  | _, [] => 0
  | n, a :: as => n.forfeit a + forfeited (n.act a) as

theorem settles_summarise (n : Node) (draws : Draws) {link : LinkId}
    (hread : (n.read? link).isSome) :
    Settles n (n.summarise link) (n.forfeit (.received draws link .trafficSummaryRequest)) := by
  unfold forfeit
  cases hid : n.topology.id with
  | none =>
    simp only [summarise, hid]
    exact (Silent.log n rfl).settles
  | some id =>
    cases hopen : n.links.isOpen link with
    | true =>
      simp only [summarise, hid, hopen, Counters.take, if_true, Bool.true_eq_false, and_false,
        if_false]
      exact settles_report n link id
    | false =>
      simp only [summarise, hid, hopen, hread, Counters.take]
      exact settles_forget n closedMessage

/-! ### Actions and runs -/

/-- **What an action loses** is what it forfeits. -/
theorem settles_act (n : Node) (a : Action) : Settles n (n.act a) (n.forfeit a) := by
  cases a with
  | accepted shown =>
    have hsame : Silent n (n.accept shown) := .of_same rfl rfl
    exact hsame.settles
  | closed link =>
    have hsame : Silent n (n.close link) := .of_same rfl rfl
    exact hsame.settles
  | exited => exact (Silent.exit n).settles
  | dialed reaches k => exact (Silent.finishSetup n reaches k).settles
  | received draws link m =>
    cases hread : n.read? link with
    | none =>
      have hforfeit : n.forfeit (.received draws link m) = 0 := by
        cases m <;> simp [forfeit, hread]
      rw [hforfeit, act_received_of_unread hread]
      exact (Silent.refl n).settles
    | some far =>
      rw [act_received hread]
      cases m with
      | registrationStatus status info => exact (Silent.registrationStatus n status info).settles
      | deregistrationStatus status info =>
        exact (Silent.deregistrationStatus n status info).settles
      | nodeManifest table nodeIds => exact (Silent.takeUp n link table nodeIds).settles
      | taskInitiate count => exact settles_initiateTask n draws count
      | dataPacket p => exact settles_packetArrived n p
      | trafficSummaryRequest => exact settles_summarise n draws (by rw [hread]; rfl)
      | nodeRegisters | nodeDeregisters | overlaySetupStatus | taskFinished
      | trafficSummaryReport => exact (Silent.log n rfl).settles

theorem settles_run (n : Node) (as : List Action) : Settles n (n.run as) (n.forfeited as) := by
  induction as generalizing n with
  | nil => exact (Silent.refl n).settles
  | cons a as ih => exact (settles_act n a).trans (ih (n.act a))

theorem silent_join (config : NodeConfig) (address : PeerAddress) :
    Silent ((unconnected config address).dial config.registry) (join config address) := by
  rw [join_eq]
  exact (Silent.sendToRegistry _ rfl).trans (.log _ rfl)

theorem accounted_join (config : NodeConfig) (address : PeerAddress) :
    (join config address).Accounted 0 := by
  have hdialed : ((unconnected config address).dial config.registry).Accounted 0 :=
    ⟨Counters.tame_zero, rfl⟩
  have hsilent := silent_join config address
  exact ⟨hsilent.counters ▸ hdialed.tame, by
    rw [hsilent.passed, hsilent.reported, hsilent.counters]; exact hdialed.total⟩

/-- No node counts more than a summary can report. -/
theorem bounded_run (config : NodeConfig) (address : PeerAddress) (as : List Action) :
    ((join config address).run as).counters.Bounded := by
  refine (settles_run (join config address) as).bounded ?_
  rw [(silent_join config address).counters]
  exact Counters.bounded_zero

theorem forfeit_eq (n : Node) (a : Action) :
    n.forfeit a = n.counters.volume ∨ n.forfeit a = 0 := by
  unfold forfeit
  split
  · split
    · exact .inl rfl
    · exact .inr rfl
  · exact .inr rfl

/-- Nothing is forfeited by a run if nothing is by any of its actions: losses never cancel. -/
theorem forfeited_eq_zero_iff (hn : n.Accounted lost) (as : List Action)
    (hfew : (n.run as).passed.Small) :
    n.forfeited as = 0 ↔
      ∀ before a after, as = before ++ a :: after → (n.run before).forfeit a = 0 := by
  induction as generalizing n lost with
  | nil =>
    refine ⟨fun _ before a after h => ?_, fun _ => rfl⟩
    exact absurd h (by simp)
  | cons a as ih =>
    have hfew' : (n.act a).passed.Small := (settles_run (n.act a) as).small hfew
    have htail := ih ((settles_act n a).accounted lost hfew' hn) hfew
    constructor
    · intro hzero before b after heq
      have hplain : (n.forfeit a).Plain := by
        rcases forfeit_eq n a with h | h
        · rw [h]; exact hn.tame.plain
        · rw [h]; exact ⟨fun _ => rfl, fun _ => rfl⟩
      have hhead : n.forfeit a = 0 := hplain.eq_zero hzero
      have hrest : (n.act a).forfeited as = 0 := by
        have h : n.forfeit a + (n.act a).forfeited as = 0 := hzero
        rwa [hhead, zero_add] at h
      cases before with
      | nil =>
        obtain ⟨rfl, -⟩ := List.cons.inj heq
        exact hhead
      | cons b' before =>
        obtain ⟨rfl, rfl⟩ := List.cons.inj heq
        exact htail.mp hrest before b after rfl
    · intro hall
      have hhead : n.forfeit a = 0 := hall [] a as rfl
      have hrest : (n.act a).forfeited as = 0 := htail.mpr fun before b after heq =>
        hall (a :: before) b after (by rw [heq]; rfl)
      change n.forfeit a + (n.act a).forfeited as = 0
      rw [hhead, hrest, add_zero]

/-- **What has passed is reported, counted, or forfeited**: of fewer packets than a counter counts
to, and of their payloads, a node knows in its summaries and its counters all but what the counters
held when a summary was asked for on a connection that has closed. -/
theorem counts_accounted {config : NodeConfig} {address : PeerAddress} {as : List Action}
    (hn : (join config address).run as = n) (hfew : n.passed.Small) :
    n.passed = n.reported + n.counters.volume + (join config address).forfeited as ∧
    (n.passed = n.reported + n.counters.volume ↔
      ∀ before a after, as = before ++ a :: after →
        ((join config address).run before).forfeit a = 0) := by
  have hjoined := accounted_join config address
  have hrun := settles_run (join config address) as
  have hiff := forfeited_eq_zero_iff hjoined as (hn ▸ hfew)
  rw [hn] at hrun
  have htotal := (hrun.accounted 0 hfew hjoined).total
  rw [zero_add] at htotal
  refine ⟨htotal, ?_⟩
  rw [← hiff]
  constructor
  · intro h
    rw [h] at htotal
    exact left_eq_add.mp htotal
  · intro h
    rw [h, add_zero] at htotal
    exact htotal

/-- A caller has the node take part in an overlay with the node 9, and originate two packets. -/
def sendsTwo : List Action :=
  let told (m : Message) : Action := .received (.ofList [0, 10, 0, 20]) 1 m
  [.accepted "127.0.0.1:40000", told (.registrationStatus 5 "welcome"),
    told (.nodeManifest ⟨[⟨9, ⟨"127.0.0.1", 7002⟩⟩], by decide⟩ [5, 9]),
    .dialed (fun _ => true) 0, told (.taskInitiate 2)]

/-- The caller asks for a summary. -/
def callerAsks : Action := .received (.ofList []) 1 .trafficSummaryRequest

/-- While the caller is connected, the two packets are reported to it. -/
theorem counts_accounted_sent :
    ((join {} ⟨"127.0.0.1", 6000⟩).run (sendsTwo ++ [callerAsks])).passed.Small ∧
    ((join {} ⟨"127.0.0.1", 6000⟩).run (sendsTwo ++ [callerAsks])).passed =
      ((join {} ⟨"127.0.0.1", 6000⟩).run (sendsTwo ++ [callerAsks])).reported +
        ((join {} ⟨"127.0.0.1", 6000⟩).run (sendsTwo ++ [callerAsks])).counters.volume +
        (join {} ⟨"127.0.0.1", 6000⟩).forfeited (sendsTwo ++ [callerAsks]) := by
  have hfew : ((join {} ⟨"127.0.0.1", 6000⟩).run (sendsTwo ++ [callerAsks])).passed.Small :=
    ⟨by decide, by decide, by decide⟩
  exact ⟨hfew, (counts_accounted rfl hfew).1⟩

/-- Once the caller is gone, its request makes the node forget two packets. -/
theorem counts_accounted_unsent :
    ((join {} ⟨"127.0.0.1", 6000⟩).run (sendsTwo ++ [.closed 1])).counters.volume =
      ⟨2, 0, 0, 30, 0⟩ ∧
    ((join {} ⟨"127.0.0.1", 6000⟩).run (sendsTwo ++ [.closed 1, callerAsks])).passed =
      ⟨2, 0, 0, 30, 0⟩ ∧
    ((join {} ⟨"127.0.0.1", 6000⟩).run (sendsTwo ++ [.closed 1, callerAsks])).reported +
      ((join {} ⟨"127.0.0.1", 6000⟩).run (sendsTwo ++ [.closed 1, callerAsks])).counters.volume =
      0 := by
  decide

end Node

end RingOverlay
