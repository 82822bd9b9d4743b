import RingOverlay.Proofs.Registry.Collection
import RingOverlay.Proofs.Registry.Progress

/-!
# Registry — rounds of reports

Three times in an experiment the registry waits for one word of each of a number of nodes: that it
is set up, that it has finished, and what it has counted.  A *round* is as many such messages as are
waited for, with nothing else in between.  What the registry has become in the middle of a round has
a closed form, in which the messages are only counted, or collected.

* `setup_round`: the setup is over with the last status, if none is negative.
* `finish_round`: the run drains with the last node.
* `summary_round`: the report is published with the last summary, and only then.
* `rounds_commute`: **in none of the three does the order of the messages matter.**
-/

namespace RingOverlay

/-- The stage after a setup status has been heard. -/
def Stage.heard (s : Stage) (status : Int32) : Stage :=
  if status < 0 then { s with progress := { s.progress with failed := s.progress.failed + 1 } }
  else
    { s with
      phase := if s.progress.established + 1 = s.progress.expected ∧ s.progress.failed = 0 then
        .ready else s.phase
      progress := { s.progress with established := s.progress.established + 1 } }

namespace Registry

variable {r r' : Registry} {a : Action} {as : List Action}

/-! ### Which messages belong to a round -/

theorem report?_congr (h : r'.links = r.links) (a : Action) : r'.report? a = r.report? a := by
  unfold report?
  rw [h]

theorem finish?_congr (h : r'.links = r.links) (a : Action) : r'.finish? a = r.finish? a := by
  unfold finish?
  rw [h]

theorem summary?_congr (h : r'.links = r.links) (a : Action) : r'.summary? a = r.summary? a := by
  unfold summary?
  rw [h]

theorem act_of_report {y : SetupReport} (h : r.report? a = some y) :
    ∃ peer info, r.act a = r.setupReported peer y.status info := by
  unfold report? at h
  split at h
  · next link status info =>
    obtain ⟨peer, hpeer, rfl⟩ := Option.map_eq_some_iff.mp h
    exact ⟨peer, info, by rw [act, receive, hpeer]; rfl⟩
  · cases h

theorem act_of_finish {link : LinkId} (h : r.finish? a = some link) :
    ∃ address id, r.act a = r.taskFinished address id := by
  unfold finish? at h
  split at h
  · next address id =>
    obtain ⟨peer, hpeer, -⟩ := Option.map_eq_some_iff.mp h
    exact ⟨address, id, by rw [act, receive, hpeer]; rfl⟩
  · cases h

theorem act_of_summary {y : SummaryReport} (h : r.summary? a = some y) :
    r.act a = r.summaryReported y.summary := by
  obtain ⟨rfl, hlink⟩ := summary?_eq_some h
  obtain ⟨peer, hpeer⟩ := Option.isSome_iff_exists.mp hlink
  rw [act, receive, hpeer]
  rfl

/-! ### Setups -/

theorem stage_setupReported (h : r.phase = .awaitingSetup) (peer : Peer) (status : Int32)
    (info : String) : (r.setupReported peer status info).stage = r.stage.heard status := by
  unfold setupReported
  rw [if_neg (not_not_intro h)]
  split
  · next hneg =>
    rw [stage_notice, stage_log, Stage.heard, if_pos hneg]
    rfl
  · next hok =>
    have hheard : r.stage.heard status =
        ⟨if r.progress.established + 1 = r.progress.expected ∧ r.progress.failed = 0 then .ready
          else r.phase, r.overlay,
          { r.progress with established := r.progress.established + 1 }⟩ := if_neg hok
    rw [hheard]
    dsimp only
    split
    · exact stage_notice _ _
    · rfl

/-- How many of the setup statuses that actions bring in are negative. -/
def failures (r : Registry) (as : List Action) : Nat :=
  as.countP fun a => (r.report? a).any fun y => decide (y.status < 0)

theorem failures_eq_zero_iff :
    r.failures as = 0 ↔ ∀ y ∈ as.filterMap r.report?, 0 ≤ y.status := by
  rw [failures, List.countP_eq_zero]
  constructor
  · intro h y hy
    obtain ⟨a, ha, hay⟩ := List.mem_filterMap.mp hy
    have hneg := h a ha
    rw [hay, Option.any_some, decide_eq_true_eq] at hneg
    exact Int32.not_lt.mp hneg
  · intro h a ha hany
    obtain ⟨y, hay, hneg⟩ := (Option.any_eq_true _ _).mp hany
    exact Int32.not_le.mpr (of_decide_eq_true hneg) (h y (List.mem_filterMap.mpr ⟨a, ha, hay⟩))

/-- The stage of a setup of `n` nodes of which `k` have been heard of, `failed` of them with a
negative status. -/
def setupStage (o : Option Overlay) (n k failed : Nat) : Stage :=
  ⟨if k = n ∧ failed = 0 then .ready else .awaitingSetup, o, ⟨n, k - failed, failed, 0⟩⟩

theorem phase_setupStage_of_lt {o : Option Overlay} {n k failed : Nat} (hk : k < n) :
    (setupStage o n k failed).phase = .awaitingSetup :=
  if_neg fun h => absurd h.1 (Nat.ne_of_lt hk)

theorem ready_setupStage_iff {o : Option Overlay} {n failed : Nat} :
    (setupStage o n n failed).phase = .ready ↔ failed = 0 := by
  unfold setupStage
  dsimp only
  split
  · next h => exact iff_of_true rfl h.2
  · next h => exact iff_of_false nofun fun h0 => h ⟨rfl, h0⟩

/-- One more status. -/
theorem heard_setupStage {o : Option Overlay} {n k failed : Nat} (hk : k < n) (hfailed : failed ≤ k)
    (status : Int32) :
    (setupStage o n k failed).heard status =
      setupStage o n (k + 1) (if status < 0 then failed + 1 else failed) := by
  have hmid : ¬ (k = n ∧ failed = 0) := fun h => absurd h.1 (Nat.ne_of_lt hk)
  unfold Stage.heard
  split
  · have hnone : ¬ (k + 1 = n ∧ failed + 1 = 0) := fun h => Nat.succ_ne_zero _ h.2
    simp only [setupStage, if_neg hmid, if_neg hnone, Nat.add_sub_add_right]
  · have hsub : k - failed + 1 = k + 1 - failed := by omega
    have hiff : (k + 1 - failed = n ∧ failed = 0) ↔ (k + 1 = n ∧ failed = 0) := by omega
    simp only [setupStage, if_neg hmid, hsub, hiff]

/-- In the middle of a round of setup statuses, they have been counted. -/
theorem stage_run_reports {o : Option Overlay} {n : Nat} (h : r.stage = setupStage o n 0 0)
    (as : List Action) (hreports : ∀ a ∈ as, (r.report? a).isSome) (hlen : as.length ≤ n) :
    (r.run as).links = r.links ∧
      (r.run as).stage = setupStage o n as.length (r.failures as) := by
  induction as using List.reverseRecOn with
  | nil => exact ⟨rfl, h⟩
  | append_singleton as a ih =>
    rw [List.length_append, List.length_singleton] at hlen
    obtain ⟨hlinks, hstage⟩ := ih (fun b hb => hreports b (List.mem_append_left _ hb)) (by omega)
    obtain ⟨y, hy⟩ := Option.isSome_iff_exists.mp
      (hreports a (List.mem_append_right _ (List.mem_singleton_self a)))
    obtain ⟨peer, info, hact⟩ := act_of_report ((report?_congr hlinks a).trans hy)
    have hphase : (r.run as).phase = .awaitingSetup :=
      (congrArg Stage.phase hstage).trans (phase_setupStage_of_lt (by omega))
    have hcount : r.failures (as ++ [a]) =
        if y.status < 0 then r.failures as + 1 else r.failures as := by
      unfold failures
      rw [List.countP_append, List.countP_singleton, hy]
      simp only [Option.any_some, decide_eq_true_eq]
      split <;> rfl
    rw [run_concat, hact]
    refine ⟨(congrArg Roll.links (roll_setupReported _ _ _ _)).trans hlinks, ?_⟩
    have hle : r.failures as ≤ as.length := List.countP_le_length
    rw [stage_setupReported hphase, hstage, heard_setupStage (by omega) hle, hcount,
      List.length_append, List.length_singleton]

/-- A setup that succeeds waits for every node that it was laid over. -/
theorem stage_of_setup {size : Option Nat} {n : Nat} (hok : (r.setup size).2 = .ok n) :
    n ≠ 0 ∧ ∃ o, (r.setup size).1.stage = setupStage o n 0 0 := by
  obtain ⟨hrun, rfl, tables, htables⟩ := exists_tables_of_setup hok
  have hn : r.membership.members.length ≠ 0 := fun h =>
    Layout.ne_nil_of_tables htables (List.length_eq_zero_iff.mp h)
  refine ⟨hn, some ⟨tables, r.membership.members.map Entry.address⟩, ?_⟩
  rw [(setup_eq_ok hrun htables).2, setupStage, if_neg fun h => hn h.1.symm]
  rfl

/-- What comes of a round of setup statuses: the setup is over with the last, if none is negative,
and not before; and how far it has come does not depend on the order. -/
structure SetupRound (r : Registry) (as : List Action) : Prop where
  waits : ∀ k < as.length, (r.run (as.take k)).phase = .awaitingSetup
  ready : (r.run as).phase = .ready ↔ ∀ y ∈ as.filterMap r.report?, 0 ≤ y.status
  commutes : ∀ bs, bs.Perm as → (r.run bs).stage = (r.run as).stage

/-- **The round of a setup**: one status for each node that it was laid over. -/
theorem setup_round {size : Option Nat} {n : Nat} (hok : (r.setup size).2 = .ok n)
    (hlen : as.length = n) (hreports : ∀ a ∈ as, ((r.setup size).1.report? a).isSome) :
    SetupRound (r.setup size).1 as := by
  subst hlen
  obtain ⟨hn, o, hstage⟩ := stage_of_setup hok
  generalize (r.setup size).1 = r at *
  have hall := (stage_run_reports hstage as hreports le_rfl).2
  refine ⟨fun k hk => ?_, ?_, fun bs hperm => ?_⟩
  · have htake : (as.take k).length < as.length := by rw [List.length_take]; omega
    have hsome := (stage_run_reports hstage (as.take k)
      (fun a ha => hreports a (List.mem_of_mem_take ha)) htake.le).2
    exact (congrArg Stage.phase hsome).trans (phase_setupStage_of_lt htake)
  · rw [show (r.run as).phase = _ from congrArg Stage.phase hall]
    exact ready_setupStage_iff.trans failures_eq_zero_iff
  · have hbs := (stage_run_reports hstage bs
      (fun a ha => hreports a (hperm.mem_iff.mp ha)) hperm.length_eq.le).2
    rw [hbs, hall, hperm.length_eq, failures, hperm.countP_eq, ← failures]

/-! ### Finishes -/

/-- While nodes originate packets, the registry does not look at who has finished. -/
theorem taskFinished_congr (h : r.phase = .running) (a b : PeerAddress) (i j : NodeId) :
    r.taskFinished a i = r.taskFinished b j := by
  unfold taskFinished
  rw [if_neg (not_not_intro h), if_neg (not_not_intro h)]

theorem taskFinished_of_more (h : r.phase = .running)
    (hmore : r.progress.finished + 1 < r.progress.expected) (a : PeerAddress) (i : NodeId) :
    r.taskFinished a i =
      { r with progress := { r.progress with finished := r.progress.finished + 1 } } := by
  unfold taskFinished
  rw [if_neg (not_not_intro h)]
  exact if_pos hmore

theorem phase_taskFinished_of_last (h : r.phase = .running)
    (hlast : ¬ r.progress.finished + 1 < r.progress.expected) (a : PeerAddress) (i : NodeId) :
    (r.taskFinished a i).phase = .draining := by
  unfold taskFinished
  rw [if_neg (not_not_intro h)]
  dsimp only
  rw [if_neg hlast]
  rfl

/-- In the middle of a round of finishes, they have been counted. -/
theorem run_finishes (h : r.phase = .running) (hzero : r.progress.finished = 0)
    (hfinishes : ∀ a ∈ as, (r.finish? a).isSome) (hlen : as.length < r.progress.expected) :
    r.run as = { r with progress := { r.progress with finished := as.length } } := by
  induction as using List.reverseRecOn with
  | nil =>
    change r = { r with progress := { r.progress with finished := 0 } }
    rw [← hzero]
  | append_singleton as a ih =>
    rw [List.length_append, List.length_singleton] at hlen
    have hrun := ih (fun b hb => hfinishes b (List.mem_append_left _ hb)) (by omega)
    obtain ⟨link, hlink⟩ := Option.isSome_iff_exists.mp
      (hfinishes a (List.mem_append_right _ (List.mem_singleton_self a)))
    obtain ⟨address, id, hact⟩ :=
      act_of_finish ((finish?_congr (congrArg links hrun) a).trans hlink)
    rw [run_concat, hact, hrun, List.length_append, List.length_singleton]
    let counted : Registry := { r with progress := { r.progress with finished := as.length } }
    exact taskFinished_of_more (r := counted) h hlen address id

/-- The last finish of a round is handled by a registry that all rounds have led to. -/
theorem run_finishes_all (h : r.phase = .running) (hzero : r.progress.finished = 0)
    (hfinishes : ∀ a ∈ as, (r.finish? a).isSome) (hsome : as ≠ [])
    (hlen : as.length = r.progress.expected) :
    ∃ address id, r.run as =
      { r with progress := { r.progress with finished := r.progress.expected - 1 } }.taskFinished
        address id := by
  obtain ⟨init, a, rfl⟩ := (List.eq_nil_or_concat' as).resolve_left hsome
  rw [List.length_append, List.length_singleton] at hlen
  have hrun := run_finishes h hzero (fun b hb => hfinishes b (List.mem_append_left _ hb)) (by omega)
  obtain ⟨link, hlink⟩ := Option.isSome_iff_exists.mp
    (hfinishes a (List.mem_append_right _ (List.mem_singleton_self a)))
  obtain ⟨address, id, hact⟩ :=
    act_of_finish ((finish?_congr (congrArg links hrun) a).trans hlink)
  refine ⟨address, id, ?_⟩
  rw [run_concat, hact, hrun, ← hlen, Nat.add_sub_cancel]

/-- A start that succeeds waits for every node that it has reached. -/
theorem stage_of_start {count : UInt32} {n : Nat} (hok : (r.start count).2 = .ok n) :
    n ≠ 0 ∧ (r.start count).1.phase = .running ∧ (r.start count).1.progress.expected = n ∧
      (r.start count).1.progress.finished = 0 := by
  by_cases h : maxCount < count ∨ r.phase ≠ .ready ∨ (r.told (.taskInitiate count)).length = 0
  · have hfail := (start_refused count h).1
    rw [hok] at hfail
    cases hfail
  · obtain ⟨hcount, h⟩ := not_or.mp h
    obtain ⟨hphase, htold⟩ := not_or.mp h
    obtain ⟨hreached, hstage⟩ := start_eq_ok hcount (Decidable.not_not.mp hphase) htold
    rw [hreached] at hok
    obtain rfl := Except.ok.inj hok
    exact ⟨htold, congrArg Stage.phase hstage, congrArg (Progress.expected ∘ Stage.progress) hstage,
      congrArg (Progress.finished ∘ Stage.progress) hstage⟩

/-- What comes of a round of finishes: the run drains with the last, and not before; and nothing of
the registry depends on the order. -/
structure FinishRound (r : Registry) (as : List Action) : Prop where
  waits : ∀ k < as.length, (r.run (as.take k)).phase = .running
  drains : (r.run as).phase = .draining
  commutes : ∀ bs, bs.Perm as → r.run bs = r.run as

/-- **The round of a run**: one finish for each node that was told to start. -/
theorem finish_round {count : UInt32} {n : Nat} (hok : (r.start count).2 = .ok n)
    (hlen : as.length = n) (hfinishes : ∀ a ∈ as, ((r.start count).1.finish? a).isSome) :
    FinishRound (r.start count).1 as := by
  subst hlen
  obtain ⟨hn, hphase, hexpected, hzero⟩ := stage_of_start hok
  generalize (r.start count).1 = r at *
  let counted : Registry :=
    { r with progress := { r.progress with finished := r.progress.expected - 1 } }
  have hsome : as ≠ [] := fun h => hn (congrArg List.length h)
  obtain ⟨address, id, hrun⟩ := run_finishes_all hphase hzero hfinishes hsome hexpected.symm
  refine ⟨fun k hk => ?_, ?_, fun bs hperm => ?_⟩
  · have htake : (as.take k).length < r.progress.expected := by
      rw [List.length_take]
      omega
    rw [run_finishes hphase hzero (fun a ha => hfinishes a (List.mem_of_mem_take ha)) htake]
    exact hphase
  · rw [hrun]
    refine phase_taskFinished_of_last (r := counted) hphase ?_ address id
    change ¬ r.progress.expected - 1 + 1 < r.progress.expected
    omega
  · obtain ⟨address', id', hrun'⟩ := run_finishes_all hphase hzero
      (fun b hb => hfinishes b (hperm.mem_iff.mp hb))
      (fun h => hsome (List.nil_perm.mp (h ▸ hperm))) (hperm.length_eq.trans hexpected.symm)
    rw [hrun, hrun']
    exact taskFinished_congr (r := counted) hphase _ _ _ _

/-! ### Summaries -/

/-- The summaries that actions bring in. -/
def broughtIn (r : Registry) (as : List Action) : List Summary :=
  (as.filterMap r.summary?).map SummaryReport.summary

/-- The registry once it has published what was collected. -/
def concluded (r : Registry) (c : Collector) : Registry :=
  (({ r with collector := .empty }.setPhase .ready).notice c.take.1.text).emit
    (.published c.take.1)

theorem phase_concluded (r : Registry) (c : Collector) : (r.concluded c).phase = .ready :=
  congrArg Stage.phase (stage_notice _ _)

theorem reports_concluded (r : Registry) (c : Collector) :
    (r.concluded c).reports = c.take.1 :: r.reports := by
  have hnotice : (({ r with collector := .empty }.setPhase .ready).notice c.take.1.text).reports =
      r.reports := reports_congr (outbox_notice _ _)
  have hpublish : (r.concluded c).reports = c.take.1 ::
      (({ r with collector := .empty }.setPhase .ready).notice c.take.1.text).reports := rfl
  rw [hpublish, hnotice]

theorem summaryReported_of_more {s : Summary} (h : r.phase = .collecting)
    (hmore : (r.collector.add s).size < r.progress.expected) :
    r.summaryReported s = { r with collector := r.collector.add s } := by
  unfold summaryReported
  rw [if_neg (not_not_intro h)]
  exact if_pos hmore

theorem summaryReported_of_last {s : Summary} (h : r.phase = .collecting)
    (hlast : ¬ (r.collector.add s).size < r.progress.expected) :
    r.summaryReported s = r.concluded (r.collector.add s) := by
  unfold summaryReported
  rw [if_neg (not_not_intro h)]
  exact if_neg hlast

theorem broughtIn_concat {y : SummaryReport} (h : r.summary? a = some y) (as : List Action) :
    r.broughtIn (as ++ [a]) = r.broughtIn as ++ [y.summary] := by
  unfold broughtIn
  rw [List.filterMap_append, List.map_append, List.filterMap_cons_some h]
  rfl

theorem length_broughtIn (h : ∀ a ∈ as, (r.summary? a).isSome) :
    (r.broughtIn as).length = as.length := by
  induction as with
  | nil => rfl
  | cons a as ih =>
    obtain ⟨y, hy⟩ := Option.isSome_iff_exists.mp (h a List.mem_cons_self)
    have hcons : r.broughtIn (a :: as) = y.summary :: r.broughtIn as := by
      unfold broughtIn
      rw [List.filterMap_cons_some hy, List.map_cons]
    rw [hcons, List.length_cons, List.length_cons, ih fun b hb => h b (.tail _ hb)]

/-- In the middle of a round of summaries, they have been collected. -/
theorem run_summaries (h : r.phase = .collecting) (hempty : r.collector = .empty)
    (hsummaries : ∀ a ∈ as, (r.summary? a).isSome) (hlen : as.length < r.progress.expected) :
    r.run as = { r with collector := .collect (r.broughtIn as) } := by
  induction as using List.reverseRecOn with
  | nil =>
    change r = { r with collector := .empty }
    rw [← hempty]
  | append_singleton as a ih =>
    rw [List.length_append, List.length_singleton] at hlen
    have hrun := ih (fun b hb => hsummaries b (List.mem_append_left _ hb)) (by omega)
    obtain ⟨y, hy⟩ := Option.isSome_iff_exists.mp
      (hsummaries a (List.mem_append_right _ (List.mem_singleton_self a)))
    have hact := act_of_summary ((summary?_congr (congrArg links hrun) a).trans hy)
    have hsize : ((Collector.collect (r.broughtIn as)).add y.summary).size < r.progress.expected := by
      rw [← Collector.collect_concat, ← broughtIn_concat hy]
      refine (Collector.size_collect_le _).trans_lt ?_
      rw [length_broughtIn hsummaries, List.length_append, List.length_singleton]
      exact hlen
    rw [run_concat, hact, hrun, broughtIn_concat hy, Collector.collect_concat]
    exact summaryReported_of_more (r := { r with collector := _ }) h hsize

/-- The last summary of a round publishes what has been collected. -/
theorem run_summaries_all (h : r.phase = .collecting) (hempty : r.collector = .empty)
    (hsummaries : ∀ a ∈ as, (r.summary? a).isSome) (hsome : as ≠ [])
    (hlen : as.length = r.progress.expected)
    (hids : ((r.broughtIn as).map Summary.id).Nodup) :
    r.run as = r.concluded (.collect (r.broughtIn as)) := by
  obtain ⟨init, a, rfl⟩ := (List.eq_nil_or_concat' as).resolve_left hsome
  have hinit : init.length < r.progress.expected := by
    rw [← hlen, List.length_append, List.length_singleton]
    exact Nat.lt_succ_self _
  have hrun := run_summaries h hempty (fun b hb => hsummaries b (List.mem_append_left _ hb)) hinit
  obtain ⟨y, hy⟩ := Option.isSome_iff_exists.mp
    (hsummaries a (List.mem_append_right _ (List.mem_singleton_self a)))
  have hact := act_of_summary ((summary?_congr (congrArg links hrun) a).trans hy)
  have hsize : ¬ ((Collector.collect (r.broughtIn init)).add y.summary).size <
      r.progress.expected := by
    rw [← Collector.collect_concat, ← broughtIn_concat hy, Collector.size_collect hids,
      length_broughtIn hsummaries, hlen]
    exact Nat.lt_irrefl _
  rw [run_concat, hact, hrun, broughtIn_concat hy, Collector.collect_concat]
  exact summaryReported_of_last (r := { r with collector := _ }) h hsize

/-- What comes of a round of summaries: one report is published, with the last and not before, and
has them all; and nothing of the registry depends on the order. -/
structure SummaryRound (r : Registry) (as : List Action) : Prop where
  waits : ∀ k < as.length, (r.run (as.take k)).phase = .collecting ∧
    (r.run (as.take k)).reports = r.reports
  publishes : ∃ report, (r.run as).reports = report :: r.reports ∧
    report.rows.Perm (r.broughtIn as) ∧ report.rows.Pairwise (fun s t => s.id < t.id) ∧
    report.totals = Totals.ofRows report.rows
  ready : (r.run as).phase = .ready
  commutes : ∀ bs, bs.Perm as → r.run bs = r.run as

/-- **The round of a collection**: one summary for each node that was asked, none in the name of
another. -/
theorem summary_round (hasks : r.asks a = true)
    (hlen : as.length = (r.told .trafficSummaryRequest).length)
    (hsummaries : ∀ b ∈ as, ((r.act a).summary? b).isSome)
    (hids : (((r.act a).broughtIn as).map Summary.id).Nodup) : SummaryRound (r.act a) as := by
  have hempty := collector_asks hasks
  obtain ⟨-, hphase⟩ := asks_iff.mp hasks
  obtain ⟨-, hsome, hstage⟩ | ⟨hnot, -⟩ := collecting_cases hphase
  swap
  · rw [hasks] at hnot
    cases hnot
  have hexpected : (r.act a).progress.expected = as.length :=
    (congrArg (Progress.expected ∘ Stage.progress) hstage).trans hlen.symm
  have hsome : as ≠ [] := fun h => hsome (hlen ▸ congrArg List.length h)
  generalize r.act a = r at *
  have hall := run_summaries_all hphase hempty hsummaries hsome hexpected.symm hids
  refine ⟨fun k hk => ?_, ⟨(Collector.collect (r.broughtIn as)).take.1, ?_, ?_, ?_, rfl⟩, ?_,
    fun bs hperm => ?_⟩
  · have htake : (as.take k).length < r.progress.expected := by
      rw [List.length_take]
      omega
    rw [run_summaries hphase hempty (fun b hb => hsummaries b (List.mem_of_mem_take hb)) htake]
    exact ⟨hphase, rfl⟩
  · rw [hall, reports_concluded]
  · exact Collector.perm_collect hids
  · exact Collector.ascending_collect _
  · rw [hall, phase_concluded]
  · have hin : (r.broughtIn bs).Perm (r.broughtIn as) := (hperm.filterMap _).map _
    have hbs := run_summaries_all hphase hempty (fun b hb => hsummaries b (hperm.mem_iff.mp hb))
      (fun h => hsome (List.nil_perm.mp (h ▸ hperm))) (hperm.length_eq.trans hexpected.symm)
      ((hin.map _).nodup_iff.mpr hids)
    rw [hall, hbs, Collector.collect_eq_of_perm hids hin]

/-! ### All three -/

/-- **The order in which nodes report does not matter**: not in the round of a setup, nor in that of
a run, nor in that of the summaries, whatever the registry was like before. -/
theorem rounds_commute (r : Registry) :
    (∀ size n as, (r.setup size).2 = .ok n → as.length = n →
      (∀ a ∈ as, ((r.setup size).1.report? a).isSome) → SetupRound (r.setup size).1 as) ∧
    (∀ count n as, (r.start count).2 = .ok n → as.length = n →
      (∀ a ∈ as, ((r.start count).1.finish? a).isSome) → FinishRound (r.start count).1 as) ∧
    ∀ a as, r.asks a = true → as.length = (r.told .trafficSummaryRequest).length →
      (∀ b ∈ as, ((r.act a).summary? b).isSome) →
      (((r.act a).broughtIn as).map Summary.id).Nodup → SummaryRound (r.act a) as :=
  ⟨fun _ _ _ hok hlen hall => setup_round hok hlen hall,
    fun _ _ _ hok hlen hall => finish_round hok hlen hall,
    fun _ _ hasks hlen hall hids => summary_round hasks hlen hall hids⟩

/-- The three rounds of an experiment with two nodes. -/
theorem rounds_commute_pair :
    SetupRound (pairRegistry.run pairJoins) [fiveReports, nineReports] ∧
    FinishRound (pairRegistry.run pairStarts) [fiveFinishes, nineFinishes] ∧
    SummaryRound (pairRegistry.run pairAsked) [fiveSummarises, nineSummarises] := by
  refine ⟨?_, ?_, ?_⟩
  · exact (rounds_commute (pairRegistry.run (pairJoins.take 4))).1 (some 1) 2 _ rfl rfl (by decide)
  · exact (rounds_commute (pairRegistry.run (pairStarts.take 7))).2.1 3 2 _ rfl rfl (by decide)
  · exact (rounds_commute (pairRegistry.run (pairAsked.take 10))).2.2 (.elapsed 5000) _ (by decide)
      rfl (by decide) (by decide)

end Registry

end RingOverlay
