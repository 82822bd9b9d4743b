import Mathlib.Data.List.Count
import Mathlib.Data.List.Perm.Subperm
import RingOverlay.Proofs.Registry.History

/-!
# Registry — reports are counted, not attributed

A registry waits for as many setup reports as the overlay has participants, and for as many finishes
as nodes were told to start.  It never looks at who reports.

`Kept h s` is the invariant that ties the stage of a registry to its history: while it waits, its
progress counts the reports since the last setup, or the finishes since the last start.  What can be
said when the count is complete is then a matter of counting (`vouched_iff`): as many reports as
participants are a report of every participant's own if and only if all of them answer the present
setup and no connection has reported more often than participants are registered on it.

* `setup_completes`: this is so whenever the last setup report comes in.
* `run_drains`: and whenever the last finish does.
-/

namespace RingOverlay.Registry

/-- Every one of `nodes` has a message of its own among those that came in on `links`: one that came
over the connection that it is registered on. -/
def Vouched (r : Registry) (nodes : List PeerAddress) (links : List LinkId) : Prop :=
  (nodes.map r.cache.get?).Subperm (links.map some)

/-- No connection is among `links` more often than there are `nodes` registered on it. -/
def NoneSpare (r : Registry) (nodes : List PeerAddress) (links : List LinkId) : Prop :=
  ∀ link ∈ links, links.count link ≤ (nodes.map r.cache.get?).count (some link)

instance (r : Registry) (nodes : List PeerAddress) (links : List LinkId) :
    Decidable (NoneSpare r nodes links) :=
  inferInstanceAs (Decidable (∀ link ∈ links, _))

variable {r r₀ : Registry} {h : List Step} {s : Stage}

/-! ### Counting -/

/-- Then every one of them has been heard of. -/
theorem Vouched.exists_link {nodes : List PeerAddress} {links : List LinkId}
    (hv : Vouched r nodes links) : ∀ a ∈ nodes, ∃ link ∈ links, r.cache.get? a = some link := by
  intro a ha
  obtain ⟨link, hlink, heq⟩ := List.mem_map.mp (hv.subset (List.mem_map_of_mem ha))
  exact ⟨link, hlink, heq.symm⟩

/-- As many messages as nodes, some of which may have come too early, vouch for every node if and
only if none of them came too early and none is spare. -/
theorem vouched_iff {α : Type} {nodes : List PeerAddress} {all timely : List α} (f : α → LinkId)
    (hlen : all.length = nodes.length) (ht : timely.Sublist all) :
    Vouched r nodes (timely.map f) ↔ timely = all ∧ NoneSpare r nodes (all.map f) := by
  have hcount : ∀ link : LinkId, ((all.map f).map some).count (some link) =
      (all.map f).count link :=
    fun link => List.count_map_of_injective _ _ (fun _ _ => Option.some.inj) _
  constructor
  -- there are as many messages as registrations, so none of them can be left out
  · intro hv
    have hle := hv.length_le
    simp only [List.length_map] at hle
    obtain rfl := ht.eq_of_length_le (hlen.le.trans hle)
    refine ⟨rfl, fun link _ => ?_⟩
    have hperm := hv.perm_of_length_le (by simp [hlen])
    rw [hperm.count_eq, hcount]
  -- connection by connection the messages are among the registrations, and so are as many in all
  · rintro ⟨rfl, hspare⟩
    have hsub : ((timely.map f).map some).Subperm (nodes.map r.cache.get?) := by
      refine List.subperm_ext_iff.mpr fun x hx => ?_
      obtain ⟨link, hlink, rfl⟩ := List.mem_map.mp hx
      rw [hcount]
      exact hspare link hlink
    exact (hsub.perm_of_length_le (by simp [hlen])).symm.subperm

/-! ### The invariant -/

/-- The registry waits for setup reports, and has counted those since the last setup. -/
structure Waiting (h : List Step) (s : Stage) : Prop where
  up : ∃ x o, last? Step.setsUp h = some x ∧ x.after.overlay = some o ∧ s.overlay = some o ∧
    s.progress.expected = o.participants.length
  count : s.progress.established + s.progress.failed = (setupReports h).length
  failed : s.progress.failed = (setupReports h).countP (·.status < 0)

/-- The registry waits for nodes to finish, and has counted those that did since the last start. -/
structure Underway (h : List Step) (s : Stage) : Prop where
  begun : ∃ x, last? Step.starts h = some x ∧ x.before.overlay = s.overlay ∧
    s.progress.expected = x.told.length
  count : s.progress.finished = (finishes h).length
  more : s.progress.finished < s.progress.expected

/-- While a registry waits, it has counted what has come in. -/
structure Kept (h : List Step) (s : Stage) : Prop where
  waiting : s.phase = .awaitingSetup → Waiting h s
  underway : s.phase = .running → Underway h s

/-- Nothing is waited for in other phases. -/
theorem Kept.of_phase (hw : s.phase ≠ .awaitingSetup) (hu : s.phase ≠ .running) : Kept h s :=
  ⟨fun hp => absurd hp hw, fun hp => absurd hp hu⟩

theorem Kept.of_waiting (hp : s.phase = .awaitingSetup) (hw : Waiting h s) : Kept h s :=
  ⟨fun _ => hw, fun hrun => absurd (hp.symm.trans hrun) (by decide)⟩

theorem Kept.of_underway (hp : s.phase = .running) (hu : Underway h s) : Kept h s :=
  ⟨fun hwait => absurd (hp.symm.trans hwait) (by decide), fun _ => hu⟩

/-- One more report, which has been counted. -/
theorem Waiting.report {x : Step} {s' : Stage} {rep : SetupReport} (hw : Waiting h s)
    (hx : x.setsUp = false) (hrep : x.report? = some rep) (hoverlay : s'.overlay = s.overlay)
    (hexpected : s'.progress.expected = s.progress.expected)
    (hcount : s'.progress.established + s'.progress.failed =
      s.progress.established + s.progress.failed + 1)
    (hfailed : s'.progress.failed = s.progress.failed + if rep.status < 0 then 1 else 0) :
    Waiting (h ++ [x]) s' := by
  have hreports : setupReports (h ++ [x]) = setupReports h ++ [rep] := by
    rw [setupReports_concat hx, hrep]
    rfl
  obtain ⟨y, o, hlast, hafter, ho, hlen⟩ := hw.up
  refine ⟨⟨y, o, by rw [last?_concat hx, hlast], hafter, hoverlay.trans ho,
    hexpected.trans hlen⟩, ?_, ?_⟩
  · rw [hreports, List.length_append, ← hw.count]
    exact hcount
  · rw [hreports, List.countP_append, ← hw.failed, hfailed, List.countP_singleton]
    simp

/-- A step that brings no report in. -/
theorem Waiting.other {x : Step} (hw : Waiting h s) (hx : x.setsUp = false)
    (hrep : x.report? = none) : Waiting (h ++ [x]) s := by
  have hreports : setupReports (h ++ [x]) = setupReports h := by
    rw [setupReports_concat hx, hrep]
    exact List.append_nil _
  obtain ⟨y, o, hlast, hafter⟩ := hw.up
  refine ⟨⟨y, o, by rw [last?_concat hx, hlast], hafter⟩, ?_, ?_⟩
  · rw [hreports, hw.count]
  · rw [hreports, hw.failed]

/-- A step in which nobody finishes. -/
theorem Underway.other {x : Step} (hu : Underway h s) (hx : x.starts = false)
    (hfin : x.finish? = none) : Underway (h ++ [x]) s := by
  have hfinishes : finishes (h ++ [x]) = finishes h := by
    rw [finishes_concat hx, hfin]
    exact List.append_nil _
  obtain ⟨y, hlast, hbegun⟩ := hu.begun
  refine ⟨⟨y, by rw [last?_concat hx, hlast], hbegun⟩, ?_, hu.more⟩
  rw [hfinishes, hu.count]

/-- One more node that finishes, and others that have not yet. -/
theorem Underway.finish {x : Step} {s' : Stage} {link : LinkId} (hu : Underway h s)
    (hx : x.starts = false) (hfin : x.finish? = some link) (hoverlay : s'.overlay = s.overlay)
    (hexpected : s'.progress.expected = s.progress.expected)
    (hcount : s'.progress.finished = s.progress.finished + 1)
    (hmore : s'.progress.finished < s'.progress.expected) : Underway (h ++ [x]) s' := by
  have hfinishes : finishes (h ++ [x]) = finishes h ++ [link] := by
    rw [finishes_concat hx, hfin]
    rfl
  obtain ⟨y, hlast, hbegun, hlen⟩ := hu.begun
  refine ⟨⟨y, by rw [last?_concat hx, hlast], hbegun.trans hoverlay.symm, hexpected.trans hlen⟩,
    ?_, hmore⟩
  rw [hfinishes, List.length_append, ← hu.count]
  exact hcount

/-- A setup that succeeds starts the count anew. -/
theorem Waiting.begin {x : Step} {o : Overlay} {s : Stage} (hx : x.setsUp = true)
    (hafter : x.after.overlay = some o) (hoverlay : s.overlay = some o)
    (hprogress : s.progress = { Progress.zero with expected := o.participants.length }) :
    Waiting (h ++ [x]) s := by
  have hreports : setupReports (h ++ [x]) = [] := setupReports_mark hx
  refine ⟨⟨x, o, last?_concat_mark hx, hafter, hoverlay, by rw [hprogress]⟩, ?_, ?_⟩
  · rw [hprogress, hreports]
    rfl
  · rw [hprogress, hreports]
    rfl

/-- A start that succeeds starts the count anew. -/
theorem Underway.begin {x : Step} {s : Stage} (hx : x.starts = true)
    (hoverlay : x.before.overlay = s.overlay) (hexpected : s.progress.expected = x.told.length)
    (hnone : s.progress.finished = 0) (hsome : x.told.length ≠ 0) : Underway (h ++ [x]) s := by
  refine ⟨⟨x, last?_concat_mark hx, hoverlay, hexpected⟩, ?_, ?_⟩
  · rw [hnone, finishes_mark hx]
    rfl
  · rw [hnone, hexpected]
    exact Nat.pos_of_ne_zero hsome

/-- **Every action keeps the count.** -/
theorem Kept.act (hk : Kept h r.stage) (a : Action) :
    Kept (h ++ [⟨r, a⟩]) (r.act a).stage := by
  have hm := moves r a
  generalize hs : (r.act a).stage = s at hm
  cases hm with
  | stays hsetup hstart hreport hfinish =>
    exact ⟨fun hp => (hk.waiting hp).other hsetup (hreport hp),
      fun hp => (hk.underway hp).other hstart (hfinish hp)⟩
  | abandons ha hup => exact .of_phase (by decide) (by decide)
  | setsUp hrun htables =>
    refine .of_waiting rfl (.begin (setsUp_of_ok hrun htables) (congrArg Stage.overlay hs) rfl ?_)
    rw [List.length_map]
  | @fails link peer status info hphase hpeer hneg =>
    have hrep := report?_received hpeer status info
    refine .of_waiting rfl ((hk.waiting hphase).report rfl hrep rfl rfl rfl ?_)
    rw [if_pos hneg]
    rfl
  | @establishes link peer status info hphase hpeer hok hmore =>
    have hrep := report?_received hpeer status info
    refine .of_waiting rfl ((hk.waiting hphase).report rfl hrep rfl rfl ?_ ?_)
    · exact Nat.add_right_comm _ _ _
    · rw [if_neg hok]
      rfl
  | starts hcount hphase htold =>
    exact .of_underway rfl (.begin (starts_of_ok hcount hphase htold) rfl rfl rfl htold)
  | @finishes link peer address id hphase hpeer hmore =>
    have hfin := finish?_received hpeer address id
    exact .of_underway rfl ((hk.underway hphase).finish rfl hfin rfl rfl rfl hmore)
  -- nothing is waited for after these
  | completes | drains | asks | asksNobody | summarises =>
    exact .of_phase (by simp) (by simp)

/-- The count is kept in every run of an idle registry. -/
theorem kept_run (h₀ : r₀.phase = .idle) (as : List Action) :
    Kept (r₀.history as) (r₀.run as).stage := by
  induction as using List.reverseRecOn with
  | nil =>
    -- an idle registry waits for nothing
    have hphase : r₀.stage.phase = .idle := h₀
    exact .of_phase (by rw [run, List.foldl_nil, hphase]; decide)
      (by rw [run, List.foldl_nil, hphase]; decide)
  | append_singleton as a ih =>
    rw [history_concat, run_concat]
    exact ih.act a

/-! ### Setups and runs that complete -/

variable {r' : Registry}

/-- **When a setup completes.**  In every run of an idle registry, the step that takes it from
awaiting a setup to being ready brings in the last of as many setup reports as the overlay has
participants; all have come in since the last setup that succeeded, which laid out this overlay, and
none reports a failure.

Say that `timely` are those of the reports that answer this setup; a message does not tell.  Then
every participant has reported this setup, each over the connection that it is registered on, if and
only if no report answers an earlier setup and no connection has reported more often than
participants are registered on it: a report from elsewhere, or a second one of a node, takes the
place of one that is missing. -/
theorem setup_completes (h₀ : r₀.phase = .idle) (as : List Action) (a : Action)
    (hr : r' = r₀.run (as ++ [a])) (hh : h = r₀.history (as ++ [a]))
    (hwait : (r₀.run as).phase = .awaitingSetup) (hready : r'.phase = .ready) :
    (∃ x, last? Step.setsUp h = some x ∧ x.after.overlay = r'.overlay ∧ r'.overlay.isSome) ∧
    (∀ rep ∈ setupReports h, 0 ≤ rep.status) ∧
    (setupReports h).length = r'.participants.length ∧
    ∀ timely, timely.Sublist (setupReports h) →
      (Vouched r' r'.participants (timely.map SetupReport.link) ↔
        timely = setupReports h ∧
          NoneSpare r' r'.participants ((setupReports h).map SetupReport.link)) := by
  have hw := (kept_run h₀ as).waiting hwait
  obtain ⟨rep, hset, hrep, hok, hoverlay, hlast, hnone⟩ :=
    (moves (r₀.run as) a).ready_of_awaitingSetup hwait
      (by rw [← run_concat, ← hr]; exact hready)
  replace hset : Step.setsUp ⟨r₀.run as, a⟩ = false := hset
  replace hrep : Step.report? ⟨r₀.run as, a⟩ = some rep := hrep
  rw [← run_concat, ← hr] at hoverlay
  have hreports : setupReports h = setupReports (r₀.history as) ++ [rep] := by
    rw [hh, history_concat, setupReports_concat hset, hrep]
    rfl
  obtain ⟨x, o, hx, hafter, ho, hexpected⟩ := hw.up
  replace hoverlay : r'.overlay = some o := hoverlay.trans ho
  have hlen : (setupReports h).length = r'.participants.length := by
    have hcount : _ + _ = (setupReports (r₀.history as)).length := hw.count
    rw [hreports, List.length_append, ← hcount, participants, hoverlay]
    change _ = o.participants.length
    rw [← hexpected, List.length_singleton]
    change (r₀.run as).progress.established + (r₀.run as).progress.failed + 1 = _
    rw [hnone, Nat.add_zero]
    exact hlast
  refine ⟨⟨x, ?_, hafter.trans hoverlay.symm, by rw [hoverlay]; rfl⟩, fun y hy => ?_, hlen,
    fun timely ht => vouched_iff _ hlen ht⟩
  · rw [hh, history_concat, last?_concat hset, hx]
  · have hfailed := List.countP_eq_zero.mp (hw.failed.symm.trans hnone)
    rw [hreports] at hy
    rcases List.mem_append.mp hy with hy | hy
    · exact Int32.not_lt.mp (of_decide_eq_false (Bool.not_eq_true _ ▸ hfailed y hy))
    · obtain rfl := List.mem_singleton.mp hy
      exact Int32.not_lt.mp hok

/-- Two nodes join a registry that hands out the identifiers five and nine, and an overlay is laid
out over them. -/
def pairJoins : List Action :=
  [.connected ⟨.loopback, "127.0.0.1:40001"⟩, .connected ⟨.loopback, "127.0.0.1:40002"⟩,
    .received 0 (.nodeRegisters ⟨"127.0.0.1", 7001⟩),
    .received 1 (.nodeRegisters ⟨"127.0.0.1", 7002⟩), .setup (some 1)]

/-- The registry that they join. -/
def pairRegistry : Registry := initial {} (.ofList [5, 9])

/-- The first node reports that it is set up. -/
def fiveReports : Action := .received 0 (.overlaySetupStatus 5 "ok")

/-- The second node reports that it is set up. -/
def nineReports : Action := .received 1 (.overlaySetupStatus 9 "ok")

/-- Each of two nodes reports its setup once. -/
theorem setup_completes_pair :
    (pairRegistry.run (pairJoins ++ [fiveReports])).phase = .awaitingSetup ∧
    (pairRegistry.run (pairJoins ++ [fiveReports] ++ [nineReports])).phase = .ready ∧
    ∀ a ∈ [⟨"127.0.0.1", 7001⟩, ⟨"127.0.0.1", 7002⟩], ∃ link ∈ [0, 1],
      (pairRegistry.run (pairJoins ++ [fiveReports] ++ [nineReports])).cache.get? a =
        some link := by
  have hidle : pairRegistry.phase = .idle := rfl
  obtain ⟨-, -, -, hiff⟩ := setup_completes hidle
    (pairJoins ++ [fiveReports]) nineReports rfl rfl (by decide) (by decide)
  have hvouched := (hiff _ (.refl _)).mpr ⟨rfl, by decide⟩
  exact ⟨by decide, by decide, hvouched.exists_link⟩

/-- One of two nodes reports its setup twice: the registry is ready, and the other has not been
heard of. -/
theorem setup_completes_unheard :
    (pairRegistry.run (pairJoins ++ [fiveReports])).phase = .awaitingSetup ∧
    (pairRegistry.run (pairJoins ++ [fiveReports] ++ [fiveReports])).phase = .ready ∧
    ∃ a ∈ (pairRegistry.run (pairJoins ++ [fiveReports] ++ [fiveReports])).participants,
      ∀ rep ∈ setupReports (pairRegistry.history (pairJoins ++ [fiveReports] ++ [fiveReports])),
        (pairRegistry.run (pairJoins ++ [fiveReports] ++ [fiveReports])).cache.get? a ≠
          some rep.link := by
  decide

/-- **When a run drains.**  In every run of an idle registry, the step that takes it from running to
draining brings in the last of as many finishes as there were participants whose task was queued by
the last start; all have come in since that start, and the overlay is still the same.

Say that `timely` are those of the finishes that answer this start; a message does not tell.  Then
every participant that was told to start has finished, and has said so over the connection that it
is registered on, if and only if no finish belongs to an earlier run and no connection has brought
in more of them than nodes that were told are registered on it. -/
theorem run_drains (h₀ : r₀.phase = .idle) (as : List Action) (a : Action)
    (hr : r' = r₀.run (as ++ [a])) (hh : h = r₀.history (as ++ [a]))
    (hrun : (r₀.run as).phase = .running) (hdrain : r'.phase = .draining) :
    ∃ x, last? Step.starts h = some x ∧ x.before.overlay = r'.overlay ∧
      (finishes h).length = x.told.length ∧
      ∀ timely, timely.Sublist (finishes h) →
        (Vouched r' x.told timely ↔
          timely = finishes h ∧ NoneSpare r' x.told (finishes h)) := by
  have hu := (kept_run h₀ as).underway hrun
  obtain ⟨link, hstart, hfin, hoverlay, hlast⟩ :=
    (moves (r₀.run as) a).draining_of_running hrun
      (by rw [← run_concat, ← hr]; exact hdrain)
  replace hstart : Step.starts ⟨r₀.run as, a⟩ = false := hstart
  replace hfin : Step.finish? ⟨r₀.run as, a⟩ = some link := hfin
  rw [← run_concat, ← hr] at hoverlay
  have hfinishes : finishes h = finishes (r₀.history as) ++ [link] := by
    rw [hh, history_concat, finishes_concat hstart, hfin]
    rfl
  obtain ⟨x, hx, hbegun, hexpected⟩ := hu.begun
  have hlen : (finishes h).length = x.told.length := by
    have hmore := hu.more
    rw [hfinishes, List.length_append, ← hu.count, ← hexpected, List.length_singleton]
    exact Nat.le_antisymm hmore (Nat.not_lt.mp hlast)
  refine ⟨x, ?_, hbegun.trans hoverlay.symm, hlen, fun timely ht => ?_⟩
  · rw [hh, history_concat, last?_concat hstart, hx]
  · have hiff := vouched_iff (r := r') id hlen ht
    rwa [List.map_id, List.map_id] at hiff

/-- The two nodes are set up and told to start. -/
def pairStarts : List Action := pairJoins ++ [fiveReports, nineReports, .start 3]

/-- The first node has finished. -/
def fiveFinishes : Action := .received 0 (.taskFinished ⟨"127.0.0.1", 7001⟩ ⟨5, by decide⟩)

/-- The second node has finished. -/
def nineFinishes : Action := .received 1 (.taskFinished ⟨"127.0.0.1", 7002⟩ ⟨9, by decide⟩)

/-- Each of two nodes finishes once. -/
theorem run_drains_pair :
    (pairRegistry.run (pairStarts ++ [fiveFinishes])).phase = .running ∧
    (pairRegistry.run (pairStarts ++ [fiveFinishes] ++ [nineFinishes])).phase = .draining ∧
    ∃ x, last? Step.starts (pairRegistry.history (pairStarts ++ [fiveFinishes] ++ [nineFinishes])) =
        some x ∧
      Vouched (pairRegistry.run (pairStarts ++ [fiveFinishes] ++ [nineFinishes])) x.told
        (finishes (pairRegistry.history (pairStarts ++ [fiveFinishes] ++ [nineFinishes]))) := by
  have hidle : pairRegistry.phase = .idle := rfl
  obtain ⟨x, hx, -, -, hiff⟩ := run_drains hidle
    (pairStarts ++ [fiveFinishes]) nineFinishes rfl rfl (by decide) (by decide)
  refine ⟨by decide, by decide, x, hx, (hiff _ (.refl _)).mpr ⟨rfl, ?_⟩⟩
  cases hx
  decide

/-- One of two nodes finishes twice: the run drains, and the other has not been heard of. -/
theorem run_drains_unheard :
    (pairRegistry.run (pairStarts ++ [fiveFinishes])).phase = .running ∧
    (pairRegistry.run (pairStarts ++ [fiveFinishes] ++ [fiveFinishes])).phase = .draining ∧
    ∃ x ∈ last? Step.starts (pairRegistry.history (pairStarts ++ [fiveFinishes] ++ [fiveFinishes])),
      ∃ a ∈ x.told,
        ∀ link ∈ finishes (pairRegistry.history (pairStarts ++ [fiveFinishes] ++ [fiveFinishes])),
          (pairRegistry.run (pairStarts ++ [fiveFinishes] ++ [fiveFinishes])).cache.get? a ≠
            some link := by
  decide

end RingOverlay.Registry
