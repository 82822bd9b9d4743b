import Mathlib.Data.List.Induction
import Mathlib.Data.Nat.Find
import RingOverlay.Proofs.Registry.Mail
import RingOverlay.Proofs.Registry.Tally

/-!
# Registry — the quiescence delay

When the last node has finished, the registry drains: it sets a timer, and asks for summaries when
the timer runs out.  Timers are never cancelled, and one that runs out looks only at whether the
registry drains.  A timer of a run that was abandoned may therefore cut the draining of a later run
short.

`Timed h p phase` is the invariant: the timers that run are those that were set when the registry
began to drain, every one of them that has not run out is still there, and while the registry drains
the last of them is.

* `elapse_add`: time may pass at once or bit by bit.
* `quiescence_kept`: **summaries are asked for when the delay is over, if and only if no timer of an
  earlier run was left.**
-/

namespace RingOverlay

namespace Registry

/-- Whether the registry begins to drain with an action. -/
def drains (r : Registry) (a : Action) : Bool :=
  r.phase != .draining && (r.act a).phase == .draining

namespace Step

/-- Whether the registry begins to drain in this step. -/
def drains (s : Step) : Bool := s.before.drains s.action

/-- The time at which the step begins. -/
def time (s : Step) : Nat := s.before.clock

end Step

variable {r r' : Registry} {a : Action}

theorem drains_iff : r.drains a = true ↔ r.phase ≠ .draining ∧ (r.act a).phase = .draining := by
  unfold drains
  rw [Bool.and_eq_true, bne_iff_ne, beq_iff_eq]

theorem draining_of_not_drains (h : r.drains a = false) (hafter : (r.act a).phase = .draining) :
    r.phase = .draining := by
  by_contra hbefore
  rw [drains_iff.mpr ⟨hbefore, hafter⟩] at h
  cases h

/-! ### Draining begins -/

/-- A registry begins to drain when a node has finished, and sets a timer. -/
theorem drains_eq_true (h : r.drains a = true) : ∃ link address id,
    a = .received link (.taskFinished address id) ∧
    (r.act a).pace = { r.pace with timers := r.timers ++ [r.clock + r.config.quiescence] } := by
  obtain ⟨hbefore, hafter⟩ := drains_iff.mp h
  have hm := moves r a
  generalize hs : (r.act a).stage = s at hm
  have hphase : s.phase = .draining := by rw [← hs]; exact hafter
  cases hm with
  | stays => exact absurd hphase hbefore
  | abandons | setsUp | fails | establishes | completes | starts | finishes | asks | asksNobody
  | summarises => cases hphase
  | @drains link peer address id hrun hpeer hall =>
    refine ⟨link, address, id, rfl, ?_⟩
    have hrunning : ¬ r.phase ≠ .running := not_not_intro hrun
    change (r.receive link _).pace = _
    simp only [receive, hpeer, handle, taskFinished, if_neg hrunning, if_neg hall]
    rfl

/-- No other action but time changes the pace. -/
theorem pace_act (h : r.drains a = false) (htime : ∀ ms, a ≠ .elapsed ms) :
    (r.act a).pace = r.pace := by
  cases a with
  | connected peer => rfl
  | closed link => rfl
  | noticed => exact pace_loseAll _ _
  | setup size => exact pace_setup r size
  | start count => exact pace_start r count
  | elapsed ms => exact absurd rfl (htime ms)
  | received link m =>
    change (r.receive link m).pace = r.pace
    cases hpeer : r.links.end? link with
    | none => rw [receive, hpeer]
    | some peer =>
      have hhandle : r.receive link m = r.handle link peer m := by rw [receive, hpeer]
      rw [hhandle]
      cases m with
      | nodeRegisters address => exact pace_register r link peer address
      | nodeDeregisters address id => exact pace_deregister r link peer address id
      | overlaySetupStatus status info => exact pace_setupReported r peer status info
      | trafficSummaryReport s => exact pace_summaryReported r s
      | taskFinished address id =>
        rw [handle]
        unfold taskFinished
        split
        · rfl
        · next hrun =>
          dsimp only
          split
          · rfl
          -- the last node to finish: this is where the registry begins to drain
          · next hall =>
            have hbefore : r.phase ≠ .draining := fun hd => by
              rw [hd] at hrun
              exact hrun (by decide)
            refine absurd (drains_iff.mpr ⟨hbefore, ?_⟩) (Bool.eq_false_iff.mp h)
            change (r.receive link _).phase = _
            rw [hhandle, handle, taskFinished, if_neg hrun, if_neg hall]
            rfl
      | _ => rfl

/-! ### The invariant -/

/-- The timers are those that were set when the registry began to drain. -/
structure Timed (h : List Step) (p : Pace) (phase : Phase) : Prop where
  set : ∀ t ∈ p.timers, ∃ y ∈ h, y.drains = true ∧ t = y.time + p.quiescence
  kept : ∀ y ∈ h, y.drains = true → p.clock < y.time + p.quiescence →
    y.time + p.quiescence ∈ p.timers
  ahead : ∀ t ∈ p.timers, 0 < p.quiescence → p.clock < t
  past : ∀ y ∈ h, y.drains = true → y.time ≤ p.clock
  last : ∀ x, last? Step.drains h = some x → ∀ y ∈ h, y.drains = true → y.time ≤ x.time
  current : phase = .draining → ∃ x, last? Step.drains h = some x ∧
    x.time + p.quiescence ∈ p.timers

variable {h : List Step} {p : Pace} {phase : Phase} {x : Step}

theorem timed_initial (config : RegistryConfig) (draws : Draws) :
    Timed [] (initial config draws).pace (initial config draws).phase where
  set _ ht := absurd ht List.not_mem_nil
  kept _ hy := absurd hy List.not_mem_nil
  ahead _ ht := absurd ht List.not_mem_nil
  past _ hy := absurd hy List.not_mem_nil
  last _ _ _ hy := absurd hy List.not_mem_nil
  current hphase := absurd (show Phase.idle = .draining from hphase) (by decide)

/-- A step that is no beginning counts for none of those before. -/
theorem mem_concat_of_not_drains (hx : x.drains = false) {y : Step} (hy : y ∈ h ++ [x])
    (hdrains : y.drains = true) : y ∈ h := by
  refine (List.mem_append.mp hy).resolve_right fun hyx => ?_
  obtain rfl := List.mem_singleton.mp hyx
  rw [hx] at hdrains
  cases hdrains

/-- Neither time passes nor does draining begin. -/
theorem Timed.other {phase' : Phase} (ht : Timed h p phase) (hx : x.drains = false)
    (hphase : phase' = .draining → phase = .draining) : Timed (h ++ [x]) p phase' where
  set t hmem := by
    obtain ⟨y, hy, hset⟩ := ht.set t hmem
    exact ⟨y, List.mem_append_left _ hy, hset⟩
  kept y hy hd := ht.kept y (mem_concat_of_not_drains hx hy hd) hd
  ahead := ht.ahead
  past y hy hd := ht.past y (mem_concat_of_not_drains hx hy hd) hd
  last z hz y hy hd := by
    rw [last?_concat hx] at hz
    exact ht.last z hz y (mem_concat_of_not_drains hx hy hd) hd
  current hdraining := by
    rw [last?_concat hx]
    exact ht.current (hphase hdraining)

/-- Draining begins. -/
theorem Timed.begin (ht : Timed h p phase) (hx : x.drains = true) (hclock : x.time = p.clock)
    (phase' : Phase) :
    Timed (h ++ [x]) { p with timers := p.timers ++ [p.clock + p.quiescence] } phase' := by
  have hmem : x ∈ h ++ [x] := List.mem_append_right _ (List.mem_singleton_self x)
  have hset : x.time + p.quiescence ∈ p.timers ++ [p.clock + p.quiescence] := by
    rw [hclock]
    exact List.mem_append_right _ (List.mem_singleton_self _)
  refine ⟨fun t hmem' => ?_, fun y hy hd hlt => ?_, fun t hmem' hq => ?_, fun y hy hd => ?_,
    fun z hz y hy hd => ?_, fun _ => ⟨x, last?_concat_mark hx, hset⟩⟩
  · rcases List.mem_append.mp hmem' with hold | hnew
    · obtain ⟨y, hy, hset⟩ := ht.set t hold
      exact ⟨y, List.mem_append_left _ hy, hset⟩
    · obtain rfl := List.mem_singleton.mp hnew
      exact ⟨x, hmem, hx, by rw [hclock]⟩
  · rcases List.mem_append.mp hy with hy | hy
    · exact List.mem_append_left _ (ht.kept y hy hd hlt)
    · obtain rfl := List.mem_singleton.mp hy
      exact hset
  · rcases List.mem_append.mp hmem' with hold | hnew
    · exact ht.ahead t hold hq
    · obtain rfl := List.mem_singleton.mp hnew
      exact Nat.lt_add_of_pos_right hq
  · rcases List.mem_append.mp hy with hy | hy
    · exact ht.past y hy hd
    · obtain rfl := List.mem_singleton.mp hy
      exact hclock.le
  · rw [last?_concat_mark hx, Option.some.injEq] at hz
    subst hz
    rcases List.mem_append.mp hy with hy | hy
    · exact (ht.past y hy hd).trans hclock.ge
    · obtain rfl := List.mem_singleton.mp hy
      exact Nat.le_refl _

/-- Time passes.  A registry that still drains has not reached the last deadline. -/
theorem Timed.elapse {phase' : Phase} {ms : Nat} (ht : Timed h p phase) (hx : x.drains = false)
    (hphase : phase' = .draining → phase = .draining ∧ ∀ t ∈ p.timers, ¬ t ≤ p.clock + ms) :
    Timed (h ++ [x]) { p with
      clock := p.clock + ms
      timers := p.timers.filter fun t => !decide (t ≤ p.clock + ms) } phase' where
  set t hmem := by
    obtain ⟨y, hy, hset⟩ := ht.set t (List.mem_filter.mp hmem).1
    exact ⟨y, List.mem_append_left _ hy, hset⟩
  kept y hy hd hlt := by
    have hlt' : p.clock + ms < y.time + p.quiescence := hlt
    have hmem := ht.kept y (mem_concat_of_not_drains hx hy hd) hd (by omega)
    exact List.mem_filter.mpr ⟨hmem, by simpa using hlt'⟩
  ahead t hmem _ := by simpa using (List.mem_filter.mp hmem).2
  past y hy hd := (ht.past y (mem_concat_of_not_drains hx hy hd) hd).trans (Nat.le_add_right _ _)
  last z hz y hy hd := by
    rw [last?_concat hx] at hz
    exact ht.last z hz y (mem_concat_of_not_drains hx hy hd) hd
  current hdraining := by
    obtain ⟨hbefore, hnone⟩ := hphase hdraining
    obtain ⟨z, hz, hmem⟩ := ht.current hbefore
    rw [last?_concat hx]
    exact ⟨z, hz, List.mem_filter.mpr ⟨hmem, by simpa using hnone _ hmem⟩⟩

/-- **Every action keeps the timers.** -/
theorem Timed.act (ht : Timed h r.pace r.phase) (a : Action) :
    Timed (h ++ [⟨r, a⟩]) (r.act a).pace (r.act a).phase := by
  by_cases hd : r.drains a = true
  · obtain ⟨link, address, id, -, hpace⟩ := drains_eq_true hd
    rw [hpace]
    exact ht.begin (x := ⟨r, a⟩) hd rfl _
  · replace hd := Bool.eq_false_iff.mpr hd
    by_cases htime : ∃ ms, a = .elapsed ms
    · obtain ⟨ms, rfl⟩ := htime
      rw [show (r.act (.elapsed ms)).pace = _ from pace_elapse r ms]
      refine ht.elapse hd fun hafter => ?_
      have hbefore := draining_of_not_drains hd hafter
      refine ⟨hbefore, fun t hmem hle => ?_⟩
      have hleft : (r.elapse ms).stage.phase ≠ .draining := by
        rw [elapse_of_due hbefore hmem hle, stage_requestSummaries (r := r.aged ms) hbefore]
        exact phase_asked_ne _
      exact hleft hafter
    · rw [pace_act hd fun ms hms => htime ⟨ms, hms⟩]
      exact ht.other hd (draining_of_not_drains hd)

/-- The timers are kept in every run. -/
theorem timed_run (config : RegistryConfig) (draws : Draws) (as : List Action) :
    Timed ((initial config draws).history as) ((initial config draws).run as).pace
      ((initial config draws).run as).phase := by
  induction as using List.reverseRecOn with
  | nil => exact timed_initial config draws
  | append_singleton as a ih =>
    rw [history_concat, run_concat]
    exact ih.act a

/-- The delay is never changed. -/
theorem quiescence_run (config : RegistryConfig) (draws : Draws) (as : List Action) :
    ((initial config draws).run as).pace.quiescence = config.quiescence := by
  induction as using List.reverseRecOn with
  | nil => rfl
  | append_singleton as a ih =>
    rw [run_concat, ← ih]
    generalize (initial config draws).run as = r
    by_cases hd : r.drains a = true
    · obtain ⟨link, address, id, -, hpace⟩ := drains_eq_true hd
      rw [hpace]
    · by_cases htime : ∃ ms, a = .elapsed ms
      · obtain ⟨ms, rfl⟩ := htime
        change (r.elapse ms).pace.quiescence = _
        rw [pace_elapse]
        rfl
      · rw [pace_act (Bool.eq_false_iff.mpr hd) fun ms hms => htime ⟨ms, hms⟩]

/-! ### When summaries are asked for -/

/-- A request goes out on `link` once `ms` milliseconds have passed, and no sooner. -/
structure AsksAfter (r : Registry) (link : LinkId) (ms : Nat) : Prop where
  asks : Message.trafficSummaryRequest ∈ r.posted (.elapsed ms) link
  first : ∀ n < ms, Message.trafficSummaryRequest ∉ r.posted (.elapsed n) link

/-- A request goes out with the first timer that runs out. -/
theorem exists_asksAfter {link : LinkId} {ms : Nat}
    (h : Message.trafficSummaryRequest ∈ r.posted (.elapsed ms) link) :
    ∃ n ≤ ms, r.AsksAfter link n ∧ (∃ t ∈ r.timers, t ≤ r.clock + n) ∧
      ∀ t ∈ r.timers, r.clock + n ≤ t ∨ n = 0 := by
  obtain ⟨m, hms, hphase, t, ht, hdue⟩ := request_of_posted h
  cases hms
  have hsome : ∃ n, ∃ t ∈ r.timers, t ≤ r.clock + n := ⟨ms, t, ht, hdue⟩
  obtain ⟨t', ht', hdue'⟩ := Nat.find_spec hsome
  refine ⟨Nat.find hsome, Nat.find_min' hsome ⟨t, ht, hdue⟩, ⟨?_, fun n hn hask => ?_⟩,
    ⟨t', ht', hdue'⟩, fun u hu => ?_⟩
  · rw [posted_elapsed_of_due hphase ht hdue] at h
    rwa [posted_elapsed_of_due hphase ht' hdue']
  · obtain ⟨m, hm, -, hearly⟩ := request_of_posted hask
    cases hm
    exact Nat.find_min hsome hn hearly
  · by_cases hle : u ≤ r.clock
    · exact .inr (Nat.eq_zero_of_le_zero (Nat.find_min' hsome ⟨u, hu, hle⟩))
    · have hmin := Nat.find_min' hsome (m := u - r.clock) ⟨u, hu, by omega⟩
      omega

/-- **When summaries are asked for.**  In every run of a registry, a request for a summary goes out
because time passes while the registry drains, at the moment when the first of its timers runs out;
the rest of the time passes after that.

The whole delay has then passed since the registry began to drain if and only if, for every time
that it began to drain before, the delay was already over when this time began to pass: a timer that
an abandoned run has left cuts the delay short. -/
theorem quiescence_kept (config : RegistryConfig) (draws : Draws) (as : List Action) (a : Action)
    (link : LinkId) (hr : r = (initial config draws).run as)
    (hh : h = (initial config draws).history as)
    (hask : Message.trafficSummaryRequest ∈ r.posted a link) :
    ∃ x ms n, last? Step.drains h = some x ∧ r.phase = .draining ∧ a = .elapsed ms ∧ n ≤ ms ∧
      r.elapse ms = (r.elapse n).elapse (ms - n) ∧ r.AsksAfter link n ∧
      (x.time + config.quiescence ≤ r.clock + n ↔
        ∀ y ∈ h, y.drains = true →
          y.time = x.time ∨ y.time + config.quiescence ≤ r.clock) := by
  have ht := timed_run config draws as
  have hq := quiescence_run config draws as
  rw [← hr] at ht hq
  rw [← hh] at ht
  obtain ⟨ms, rfl, hphase, -⟩ := request_of_posted hask
  obtain ⟨x, hx, hset⟩ := ht.current hphase
  obtain ⟨n, hle, hasks, ⟨t, hmem, hdue⟩, hfirst⟩ := exists_asksAfter hask
  obtain ⟨y, hy, hd, hty⟩ := ht.set t hmem
  rw [hq] at hset hty
  refine ⟨x, ms, n, hx, hphase, rfl, hle, ?_, hasks, ?_⟩
  · rw [elapse_add, Nat.add_sub_cancel' hle]
  constructor
  -- a timer that was left would have run out before the last one
  · intro hfull z hz hzd
    by_cases hover : z.time + config.quiescence ≤ r.clock
    · exact .inr hover
    · have hleft := ht.kept z hz hzd (by rw [hq]; exact Nat.not_le.mp hover)
      rw [hq] at hleft
      have hzx := ht.last x hx z hz hzd
      rcases hfirst _ hleft with hlt | hnone
      · left; omega
      · left; omega
  -- the first timer that runs out is the last that was set
  · intro hall
    rcases hall y hy hd with hsame | hover
    · omega
    · have hpast := ht.past x (List.mem_reverse.mp (List.mem_of_find?_eq_some hx))
        (List.find?_some (p := Step.drains) hx)
      have hahead := ht.ahead t hmem
      rw [hq] at hahead
      by_cases hzero : 0 < config.quiescence
      · have hlt : r.clock < t := hahead hzero
        omega
      · have hpast' : x.time ≤ r.clock := hpast
        omega

/-- Two nodes have sent their packets, and the registry drains. -/
def pairDrains : List Action := pairStarts ++ [fiveFinishes, nineFinishes]

/-- A single run is asked for its summaries after the whole delay. -/
theorem quiescence_kept_pair :
    (pairRegistry.run pairDrains).phase = .draining ∧
    ∃ x n, last? Step.drains (pairRegistry.history pairDrains) = some x ∧
      (pairRegistry.run pairDrains).AsksAfter 0 n ∧
      x.time + 5000 ≤ (pairRegistry.run pairDrains).clock + n := by
  obtain ⟨x, ms, n, hx, hphase, -, -, -, hasks, hiff⟩ := quiescence_kept
    {} (.ofList [5, 9]) pairDrains (.elapsed 6000) 0 rfl rfl (by decide)
  exact ⟨hphase, x, n, hx, hasks, hiff.mpr (by cases hx; decide)⟩

/-- The second node leaves two seconds into the delay and joins again, and the next run drains
before the delay of the first would have been over. -/
def pairOvertakes : List Action :=
  pairDrains ++ [.elapsed 2000, .received 1 (.nodeDeregisters ⟨"127.0.0.1", 7002⟩ (9 : NodeId)),
    .received 1 (.nodeRegisters ⟨"127.0.0.1", 7002⟩), .setup (some 1), fiveReports, nineReports,
    .start 3, fiveFinishes, nineFinishes]

/-- The timer of the run that was abandoned cuts the delay of the next one to three seconds. -/
theorem quiescence_kept_overtaken :
    (pairRegistry.run pairOvertakes).phase = .draining ∧
    Message.trafficSummaryRequest ∈ (pairRegistry.run pairOvertakes).posted (.elapsed 3000) 0 ∧
    ∃ x ∈ last? Step.drains (pairRegistry.history pairOvertakes),
      ¬ x.time + 5000 ≤ (pairRegistry.run pairOvertakes).clock + 3000 := by
  decide

end Registry

end RingOverlay
