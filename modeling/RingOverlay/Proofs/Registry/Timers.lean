import RingOverlay.Proofs.Registry.Stage

/-!
# Registry — timers

The *pace* of a registry is its clock, its timers and the delay for which it sets them.  Only two
things change it: time, and the last node to finish, which sets a timer.  Timers that run out do
something only while the registry drains, and then only the first of them.

* `elapse_cases`: time that passes fires nothing, or has summaries asked for.
* `elapse_add`: **time may pass at once or bit by bit.**
-/

namespace RingOverlay

/-- The clock of a registry, its timers, and the delay for which they are set. -/
structure Pace where
  clock : Nat
  timers : List Nat
  quiescence : Nat

namespace Registry

variable {r r' : Registry}

/-! ### What runs out -/

/-- The registry `ms` later, if the timers that have run out do nothing. -/
def aged (r : Registry) (ms : Nat) : Registry :=
  { r with
    clock := r.clock + ms
    timers := r.timers.filter fun t => !decide (t ≤ r.clock + ms) }

theorem elapse_eq (r : Registry) (ms : Nat) :
    r.elapse ms = fireEach (r.timers.filter (· ≤ r.clock + ms)).length (r.aged ms) := rfl

theorem elapse_of_ne (h : r.phase ≠ .draining) (ms : Nat) : r.elapse ms = r.aged ms :=
  fireEach_of_ne (r := r.aged ms) h _

theorem elapse_of_none {ms : Nat} (h : ∀ t ∈ r.timers, ¬ t ≤ r.clock + ms) :
    r.elapse ms = r.aged ms := by
  have hnone : r.timers.filter (· ≤ r.clock + ms) = [] :=
    List.filter_eq_nil_iff.mpr fun t ht => by simpa using h t ht
  rw [elapse_eq, hnone]
  rfl

/-- The first of the timers that have run out asks for summaries. -/
theorem elapse_of_due {t ms : Nat} (hphase : r.phase = .draining) (ht : t ∈ r.timers)
    (hdue : t ≤ r.clock + ms) : r.elapse ms = (r.aged ms).requestSummaries := by
  have hmem : t ∈ r.timers.filter (· ≤ r.clock + ms) :=
    List.mem_filter.mpr ⟨ht, decide_eq_true hdue⟩
  obtain ⟨n, hn⟩ := Nat.exists_eq_succ_of_ne_zero (Nat.ne_zero_of_lt (List.length_pos_of_mem hmem))
  have hleft : (r.aged ms).requestSummaries.phase ≠ .draining := by
    change (r.aged ms).requestSummaries.stage.phase ≠ _
    rw [stage_requestSummaries (r := r.aged ms) hphase]
    exact phase_asked_ne _
  rw [elapse_eq, hn]
  exact fireEach_of_ne hleft n

/-- Time that passes fires nothing, or has summaries asked for. -/
theorem elapse_cases (r : Registry) (ms : Nat) :
    r.elapse ms = r.aged ms ∨
    r.phase = .draining ∧ (∃ t ∈ r.timers, t ≤ r.clock + ms) ∧
      r.elapse ms = (r.aged ms).requestSummaries := by
  by_cases hphase : r.phase = .draining
  · by_cases hdue : ∃ t ∈ r.timers, t ≤ r.clock + ms
    · obtain ⟨t, ht, hle⟩ := hdue
      exact .inr ⟨hphase, ⟨t, ht, hle⟩, elapse_of_due hphase ht hle⟩
    · exact .inl (elapse_of_none fun t ht hle => hdue ⟨t, ht, hle⟩)
  · exact .inl (elapse_of_ne hphase ms)

/-- The registry, with nothing collected. -/
def cleared (r : Registry) : Registry := { r with collector := .empty }

theorem requestSummaries_eq (h : r.phase = .draining) : r.requestSummaries =
    let (r', nodes) := r.cleared.broadcast .trafficSummaryRequest
    if nodes = 0 then (r'.log .nobodyToSummarise).setPhase .ready
    else { r' with progress := { r'.progress with expected := nodes } }.setPhase .collecting :=
  if_neg (not_not_intro h)

/-! ### Time passes bit by bit -/

theorem aged_add (r : Registry) (m n : Nat) : (r.aged m).aged n = r.aged (m + n) := by
  have htimers : (r.aged m).timers.filter (fun t => !decide (t ≤ r.clock + m + n)) =
      r.timers.filter fun t => !decide (t ≤ r.clock + (m + n)) := by
    unfold aged
    rw [List.filter_filter]
    refine List.filter_congr fun t _ => ?_
    rw [← Bool.not_or, ← Bool.decide_or, Nat.add_assoc]
    congr 2
    exact propext (or_iff_left_of_imp fun hle => by omega)
  unfold aged at *
  rw [htimers, Nat.add_assoc]

theorem send_aged (r : Registry) (n : Nat) (a : PeerAddress) (m : Message) :
    (r.aged n).send a m = ((r.send a m).1.aged n, (r.send a m).2) := by
  have hcache : (r.aged n).cache = r.cache := rfl
  have hlinks : (r.aged n).links = r.links := rfl
  unfold send
  rw [hcache, hlinks]
  cases r.cache.get? a with
  | none => rfl
  | some link =>
    dsimp only
    split <;> rfl

theorem sendEach_aged (m : Message) (as : List PeerAddress) (r : Registry) (n : Nat) :
    sendEach m as (r.aged n) = ((sendEach m as r).1.aged n, (sendEach m as r).2) := by
  induction as generalizing r with
  | nil => rfl
  | cons a as ih => simp only [sendEach, send_aged, ih]

theorem broadcast_aged (r : Registry) (n : Nat) (m : Message) :
    (r.aged n).broadcast m = ((r.broadcast m).1.aged n, (r.broadcast m).2) := by
  have hoverlay : (r.aged n).overlay = r.overlay := rfl
  unfold broadcast
  rw [hoverlay]
  cases r.overlay with
  | some o => exact sendEach_aged m o.participants r n
  | none => rfl

theorem requestSummaries_aged (h : r.phase = .draining) (n : Nat) :
    (r.aged n).requestSummaries = r.requestSummaries.aged n := by
  have hsent : (r.aged n).cleared.broadcast .trafficSummaryRequest = _ :=
    broadcast_aged r.cleared n .trafficSummaryRequest
  rw [requestSummaries_eq (r := r.aged n) h, requestSummaries_eq h, hsent]
  dsimp only
  split <;> rfl

/-- **Time may pass at once or bit by bit.** -/
theorem elapse_add (r : Registry) (m n : Nat) : (r.elapse m).elapse n = r.elapse (m + n) := by
  by_cases hphase : r.phase = .draining
  · by_cases hdue : ∃ t ∈ r.timers, t ≤ r.clock + m
    -- summaries are asked for in the first part
    · obtain ⟨t, ht, hle⟩ := hdue
      have hleft : (r.aged m).requestSummaries.phase ≠ .draining := by
        change (r.aged m).requestSummaries.stage.phase ≠ _
        rw [stage_requestSummaries (r := r.aged m) hphase]
        exact phase_asked_ne _
      rw [elapse_of_due hphase ht hle, elapse_of_ne hleft, elapse_of_due hphase ht (by omega),
        ← aged_add, requestSummaries_aged (r := r.aged m) hphase]
    · have hnone : ∀ t ∈ r.timers, ¬ t ≤ r.clock + m := fun t ht hle => hdue ⟨t, ht, hle⟩
      rw [elapse_of_none hnone]
      by_cases hlater : ∃ t ∈ r.timers, t ≤ r.clock + (m + n)
      -- in the second
      · obtain ⟨t, ht, hle⟩ := hlater
        have hkept : t ∈ (r.aged m).timers :=
          List.mem_filter.mpr ⟨ht, by simpa using hnone t ht⟩
        have hle' : t ≤ (r.aged m).clock + n := by
          change t ≤ r.clock + m + n
          omega
        rw [elapse_of_due (r := r.aged m) hphase hkept hle', elapse_of_due hphase ht hle, aged_add]
      -- in neither
      · have hnone' : ∀ t ∈ (r.aged m).timers, ¬ t ≤ (r.aged m).clock + n := by
          intro t ht hle
          refine hlater ⟨t, (List.mem_filter.mp ht).1, ?_⟩
          change t ≤ r.clock + m + n at hle
          omega
        rw [elapse_of_none hnone', aged_add,
          elapse_of_none fun t ht hle => hlater ⟨t, ht, hle⟩]
  · rw [elapse_of_ne hphase, elapse_of_ne (r := r.aged m) hphase, elapse_of_ne hphase, aged_add]

/-! ### The pace -/

/-- The pace of a registry. -/
def pace (r : Registry) : Pace := ⟨r.clock, r.timers, r.config.quiescence⟩

theorem pace_congr (h : r'.quiet = r.quiet) : r'.pace = r.pace :=
  congr_of_quiet pace (fun _ => rfl) h

@[simp] theorem pace_notice (r : Registry) (line : String) : (r.notice line).pace = r.pace :=
  pace_congr (quiet_notice r line)

@[simp] theorem pace_answerRegistration (r : Registry) (link : LinkId) (status : Int32)
    (info : String) : (r.answerRegistration link status info).pace = r.pace :=
  pace_congr (quiet_answerRegistration r link status info)

@[simp] theorem pace_answerDeregistration (r : Registry) (link : LinkId) (status : Int32)
    (info : String) : (r.answerDeregistration link status info).pace = r.pace :=
  pace_congr (quiet_answerDeregistration r link status info)

@[simp] theorem pace_sendManifests (r : Registry) (ids : List NodeId)
    (manifests : List (Entry × (NodeId × FingerTable))) :
    (sendManifests ids manifests r).pace = r.pace :=
  pace_congr (quiet_sendManifests r ids manifests)

@[simp] theorem pace_broadcast (r : Registry) (m : Message) : (r.broadcast m).1.pace = r.pace :=
  pace_congr (quiet_broadcast r m)

theorem pace_abandonOverlay (r : Registry) (a : PeerAddress) (reason : String) :
    (r.abandonOverlay a reason).pace = r.pace := by
  unfold abandonOverlay
  split
  · rfl
  · split
    · exact pace_notice _ _
    · rfl

theorem pace_connectionLost (r : Registry) (w : Watch) : (r.connectionLost w).pace = r.pace := by
  unfold connectionLost
  split
  · rw [pace_abandonOverlay, pace_notice]
    rfl
  · rfl

theorem pace_loseAll (ws : List Watch) (r : Registry) : (loseAll ws r).pace = r.pace := by
  induction ws generalizing r with
  | nil => rfl
  | cons w ws ih => exact (ih _).trans (pace_connectionLost r w)

theorem pace_register (r : Registry) (link : LinkId) (peer : Peer) (a : PeerAddress) :
    (r.register link peer a).pace = r.pace := by
  unfold register
  split
  · rw [pace_answerRegistration, pace_notice]
    rfl
  · rw [pace_answerRegistration, pace_notice]
    rfl

theorem pace_deregister (r : Registry) (link : LinkId) (peer : Peer) (a : PeerAddress)
    (id : NodeId) : (r.deregister link peer a id).pace = r.pace := by
  unfold deregister
  split
  · rw [pace_answerDeregistration, pace_notice]
    exact pace_abandonOverlay _ _ _
  · rw [pace_answerDeregistration, pace_notice]
    rfl

theorem pace_setupReported (r : Registry) (peer : Peer) (status : Int32) (info : String) :
    (r.setupReported peer status info).pace = r.pace := by
  unfold setupReported
  split
  · rfl
  · split
    · exact pace_notice _ _
    · dsimp only
      split
      · exact pace_notice _ _
      · rfl

theorem pace_summaryReported (r : Registry) (s : Summary) :
    (r.summaryReported s).pace = r.pace := by
  unfold summaryReported
  split
  · rfl
  · dsimp only
    split
    · rfl
    · exact pace_notice _ _

theorem pace_requestSummaries (r : Registry) : r.requestSummaries.pace = r.pace := by
  have hsent := pace_broadcast { r with collector := .empty } .trafficSummaryRequest
  unfold requestSummaries
  split
  · rfl
  · dsimp only
    split
    · exact hsent
    · exact hsent

theorem pace_setup (r : Registry) (size : Option Nat) : (r.setup size).1.pace = r.pace := by
  unfold setup
  split
  · rfl
  · dsimp only
    split
    · rfl
    · next tables _ =>
      exact pace_sendManifests r r.membership.ids (r.membership.members.zip tables)

theorem pace_start (r : Registry) (count : UInt32) : (r.start count).1.pace = r.pace := by
  unfold start
  split
  · rfl
  · split
    · rfl
    · rfl
    · dsimp only
      split
      · exact pace_broadcast r _
      · exact pace_broadcast r _
    · rfl

theorem pace_elapse (r : Registry) (ms : Nat) : (r.elapse ms).pace = (r.aged ms).pace := by
  rcases elapse_cases r ms with h | ⟨-, -, h⟩
  · rw [h]
  · rw [h, pace_requestSummaries]

end Registry

end RingOverlay
