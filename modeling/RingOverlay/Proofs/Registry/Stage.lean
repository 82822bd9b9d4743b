import RingOverlay.Proofs.Registry.Quiet

/-!
# Registry — the stages of an experiment

The *stage* of a registry is its phase, its overlay and the progress made on it.  `Moves r a s`
lists all that an action can do to it, and `moves` says that the list is complete: what holds of the
stage along every run is shown by going through it.

An action may also count for something.  `setsUp` and `starts` are the commands that succeed;
`report?` and `finish?` are the messages that a phase counts, with the connection that each came in
on.
-/

namespace RingOverlay

/-- How far an experiment has come. -/
structure Stage where
  phase : Phase
  overlay : Option Overlay
  progress : Progress
  deriving DecidableEq

/-- Nothing is set up. -/
def Stage.idle : Stage := ⟨.idle, none, .zero⟩

/-- A status that a node reports of its setup, and the connection that the report came in on. -/
structure SetupReport where
  link : LinkId
  status : Int32
  deriving DecidableEq, Repr

namespace Registry

/-- The stage of the experiment. -/
def stage (r : Registry) : Stage := ⟨r.phase, r.overlay, r.progress⟩

/-! ### What counts -/

/-- Whether an action is a setup that succeeds. -/
def setsUp (r : Registry) : Action → Bool
  | .setup size => (r.setup size).2.isOk
  | _ => false

/-- Whether an action is a start that succeeds. -/
def starts (r : Registry) : Action → Bool
  | .start count => (r.start count).2.isOk
  | _ => false

/-- The setup status that an action brings in. -/
def report? (r : Registry) : Action → Option SetupReport
  | .received link (.overlaySetupStatus status _) => (r.links.end? link).map fun _ => ⟨link, status⟩
  | _ => none

/-- The connection over which an action brings in that a node has finished. -/
def finish? (r : Registry) : Action → Option LinkId
  | .received link (.taskFinished _ _) => (r.links.end? link).map fun _ => link
  | _ => none

/-! ### What an action can do -/

/-- What an action can do to the stage of a registry. -/
inductive Moves (r : Registry) : Action → Stage → Prop where
  /-- Nothing, and then the action has not counted for anything either. -/
  | stays {a : Action} (hsetup : r.setsUp a = false) (hstart : r.starts a = false)
      (hreport : r.phase = .awaitingSetup → r.report? a = none)
      (hfinish : r.phase = .running → r.finish? a = none) : Moves r a r.stage
  /-- A participant is gone. -/
  | abandons {a : Action}
      (ha : a = .noticed ∨ ∃ link address id, a = .received link (.nodeDeregisters address id))
      (hup : r.overlay.isSome) : Moves r a .idle
  | setsUp {size : Option Nat} {tables : List (NodeId × FingerTable)} (hrun : r.phase.isRun = false)
      (htables : Layout.tables r.membership.members (size.getD r.config.defaultTableSize) =
        .ok tables) :
      Moves r (.setup size) ⟨.awaitingSetup, some ⟨tables, r.membership.members.map Entry.address⟩,
        { Progress.zero with expected := r.membership.members.length }⟩
  /-- A node has failed to set up. -/
  | fails {link : LinkId} {peer : Peer} {status : Int32} {info : String}
      (hphase : r.phase = .awaitingSetup) (hpeer : r.links.end? link = some peer)
      (hneg : status < 0) :
      Moves r (.received link (.overlaySetupStatus status info))
        ⟨.awaitingSetup, r.overlay, { r.progress with failed := r.progress.failed + 1 }⟩
  /-- A node is set up, and others are not yet. -/
  | establishes {link : LinkId} {peer : Peer} {status : Int32} {info : String}
      (hphase : r.phase = .awaitingSetup) (hpeer : r.links.end? link = some peer)
      (hok : ¬ status < 0)
      (hmore : ¬ (r.progress.established + 1 = r.progress.expected ∧ r.progress.failed = 0)) :
      Moves r (.received link (.overlaySetupStatus status info))
        ⟨.awaitingSetup, r.overlay, { r.progress with established := r.progress.established + 1 }⟩
  /-- The last node is set up. -/
  | completes {link : LinkId} {peer : Peer} {status : Int32} {info : String}
      (hphase : r.phase = .awaitingSetup) (hpeer : r.links.end? link = some peer)
      (hok : ¬ status < 0)
      (hall : r.progress.established + 1 = r.progress.expected ∧ r.progress.failed = 0) :
      Moves r (.received link (.overlaySetupStatus status info))
        ⟨.ready, r.overlay, { r.progress with established := r.progress.established + 1 }⟩
  | starts {count : UInt32} (hcount : ¬ maxCount < count) (hphase : r.phase = .ready)
      (htold : (r.told (.taskInitiate count)).length ≠ 0) :
      Moves r (.start count) ⟨.running, r.overlay,
        { r.progress with expected := (r.told (.taskInitiate count)).length, finished := 0 }⟩
  /-- A node has finished, and others have not yet. -/
  | finishes {link : LinkId} {peer : Peer} {address : PeerAddress} {id : NodeId}
      (hphase : r.phase = .running) (hpeer : r.links.end? link = some peer)
      (hmore : r.progress.finished + 1 < r.progress.expected) :
      Moves r (.received link (.taskFinished address id))
        ⟨.running, r.overlay, { r.progress with finished := r.progress.finished + 1 }⟩
  /-- The last node has finished. -/
  | drains {link : LinkId} {peer : Peer} {address : PeerAddress} {id : NodeId}
      (hphase : r.phase = .running) (hpeer : r.links.end? link = some peer)
      (hall : ¬ r.progress.finished + 1 < r.progress.expected) :
      Moves r (.received link (.taskFinished address id))
        ⟨.draining, r.overlay, { r.progress with finished := r.progress.finished + 1 }⟩
  /-- Summaries are asked for. -/
  | asks {ms : Nat} (hphase : r.phase = .draining)
      (htold : (r.told .trafficSummaryRequest).length ≠ 0) :
      Moves r (.elapsed ms) ⟨.collecting, r.overlay,
        { r.progress with expected := (r.told .trafficSummaryRequest).length }⟩
  /-- Nobody can be asked for a summary. -/
  | asksNobody {ms : Nat} (hphase : r.phase = .draining)
      (htold : (r.told .trafficSummaryRequest).length = 0) :
      Moves r (.elapsed ms) ⟨.ready, r.overlay, r.progress⟩
  /-- The last summary is in. -/
  | summarises {link : LinkId} {peer : Peer} {s : Summary} (hphase : r.phase = .collecting)
      (hpeer : r.links.end? link = some peer)
      (hall : ¬ (r.collector.add s).size < r.progress.expected) :
      Moves r (.received link (.trafficSummaryReport s)) ⟨.ready, r.overlay, r.progress⟩

variable {r r' : Registry}

theorem report?_received {link : LinkId} {peer : Peer} (hpeer : r.links.end? link = some peer)
    (status : Int32) (info : String) :
    r.report? (.received link (.overlaySetupStatus status info)) = some ⟨link, status⟩ := by
  rw [report?, hpeer]
  rfl

theorem finish?_received {link : LinkId} {peer : Peer} (hpeer : r.links.end? link = some peer)
    (address : PeerAddress) (id : NodeId) :
    r.finish? (.received link (.taskFinished address id)) = some link := by
  rw [finish?, hpeer]
  rfl

/-! ### Effects -/

theorem stage_congr (h : r'.quiet = r.quiet) : r'.stage = r.stage :=
  congr_of_quiet stage (fun _ => rfl) h

@[simp] theorem stage_log (r : Registry) (e : RegistryEvent) : (r.log e).stage = r.stage := rfl

@[simp] theorem stage_notice (r : Registry) (line : String) : (r.notice line).stage = r.stage :=
  stage_congr (quiet_notice r line)

@[simp] theorem stage_setPhase (r : Registry) (p : Phase) :
    (r.setPhase p).stage = ⟨p, r.overlay, r.progress⟩ := rfl

@[simp] theorem stage_answerRegistration (r : Registry) (link : LinkId) (status : Int32)
    (info : String) : (r.answerRegistration link status info).stage = r.stage :=
  stage_congr (quiet_answerRegistration r link status info)

@[simp] theorem stage_answerDeregistration (r : Registry) (link : LinkId) (status : Int32)
    (info : String) : (r.answerDeregistration link status info).stage = r.stage :=
  stage_congr (quiet_answerDeregistration r link status info)

@[simp] theorem stage_broadcast (r : Registry) (m : Message) :
    (r.broadcast m).1.stage = r.stage :=
  stage_congr (quiet_broadcast r m)

/-! ### Members come and go -/

/-- What members can do to a stage by leaving: nothing, or end it. -/
def Stays (s s' : Stage) : Prop := s' = s ∨ s.overlay.isSome ∧ s' = .idle

theorem Stays.refl (s : Stage) : Stays s s := .inl rfl

theorem Stays.trans {s s' s'' : Stage} (h : Stays s s') (h' : Stays s' s'') : Stays s s'' := by
  rcases h with rfl | ⟨hup, rfl⟩
  · exact h'
  · rcases h' with rfl | ⟨hup', -⟩
    · exact .inr ⟨hup, rfl⟩
    · exact absurd hup' (by decide)

theorem stage_register (r : Registry) (link : LinkId) (peer : Peer) (a : PeerAddress) :
    (r.register link peer a).stage = r.stage := by
  unfold register
  split
  · rw [stage_answerRegistration, stage_notice, stage_log]
    rfl
  · rw [stage_answerRegistration, stage_notice, stage_log]

theorem stays_abandonOverlay (r : Registry) (a : PeerAddress) (reason : String) :
    Stays r.stage (r.abandonOverlay a reason).stage := by
  unfold abandonOverlay
  split
  · exact .refl _
  · next o ho =>
    split
    · refine .inr ⟨?_, rfl⟩
      change r.overlay.isSome
      rw [ho]
      rfl
    · exact .refl _

theorem stays_deregister (r : Registry) (link : LinkId) (peer : Peer) (a : PeerAddress)
    (id : NodeId) : Stays r.stage (r.deregister link peer a id).stage := by
  unfold deregister
  split
  · next membership _ =>
    rw [stage_answerDeregistration, stage_notice, stage_log]
    exact stays_abandonOverlay { r with membership := membership, cache := r.cache.erase a } a _
  · rw [stage_answerDeregistration, stage_notice, stage_log]
    exact .refl _

theorem stays_connectionLost (r : Registry) (w : Watch) :
    Stays r.stage (r.connectionLost w).stage := by
  unfold connectionLost
  split
  · refine .trans (.inl ?_) (stays_abandonOverlay _ _ _)
    rw [stage_notice, stage_log]
    rfl
  · exact .refl _

/-- Losing members one after the other is like losing one. -/
theorem stays_loseAll (ws : List Watch) (r : Registry) : Stays r.stage (loseAll ws r).stage := by
  induction ws generalizing r with
  | nil => exact .refl _
  | cons w ws ih => exact (stays_connectionLost r w).trans (ih _)

theorem stays_noticeClosed (r : Registry) : Stays r.stage r.noticeClosed.stage :=
  stays_loseAll r.overdue
    { r with watches := r.watches.filter fun w => !r.links.closed.contains w.link }

/-! ### Time -/

/-- The stage that a round of requests for summaries leads to. -/
def asked (r : Registry) : Stage :=
  if (r.told .trafficSummaryRequest).length = 0 then ⟨.ready, r.overlay, r.progress⟩
  else ⟨.collecting, r.overlay,
    { r.progress with expected := (r.told .trafficSummaryRequest).length }⟩

theorem phase_asked_ne (r : Registry) : r.asked.phase ≠ .draining := by
  unfold asked
  split
  · simp
  · simp

theorem stage_requestSummaries (h : r.phase = .draining) : r.requestSummaries.stage = r.asked := by
  have hsent := broadcast_snd { r with collector := .empty } .trafficSummaryRequest
  have htold : { r with collector := .empty }.told .trafficSummaryRequest =
      r.told .trafficSummaryRequest := by apply told_congr <;> rfl
  have hstage := stage_broadcast { r with collector := .empty } .trafficSummaryRequest
  rw [htold] at hsent
  have hoverlay := congrArg Stage.overlay hstage
  have hprogress := congrArg Stage.progress hstage
  simp only [stage] at hoverlay hprogress
  unfold requestSummaries asked
  rw [if_neg (not_not_intro h)]
  simp only [hsent]
  split
  · rw [stage_setPhase, log, emit, hoverlay, hprogress]
  · simp only [stage_setPhase, hoverlay, hprogress]

/-- Timers that fire outside of draining do nothing. -/
theorem fireEach_of_ne (h : r.phase ≠ .draining) (n : Nat) : fireEach n r = r := by
  induction n with
  | zero => rfl
  | succ n ih =>
    have hfire : r.requestSummaries = r := if_pos h
    rw [fireEach, hfire, ih]

/-- Only the first timer that fires can ask for summaries. -/
theorem stage_fireEach (n : Nat) (r : Registry) :
    (fireEach n r).stage = r.stage ∨ r.phase = .draining ∧ (fireEach n r).stage = r.asked := by
  cases n with
  | zero => exact .inl rfl
  | succ n =>
    by_cases h : r.phase = .draining
    · have hasked := stage_requestSummaries h
      have hphase : r.requestSummaries.phase ≠ .draining := by
        change r.requestSummaries.stage.phase ≠ _
        rw [hasked]
        exact phase_asked_ne r
      -- the first timer has left draining behind, and the others find nothing to do
      rw [fireEach, fireEach_of_ne hphase]
      exact .inr ⟨h, hasked⟩
    · rw [fireEach_of_ne h]
      exact .inl rfl

/-! ### Commands -/

theorem setup_eq_ok {size : Option Nat} {tables : List (NodeId × FingerTable)}
    (hrun : r.phase.isRun = false)
    (htables : Layout.tables r.membership.members (size.getD r.config.defaultTableSize) =
      .ok tables) :
    (r.setup size).2 = .ok r.membership.members.length ∧
    (r.setup size).1.stage =
      ⟨.awaitingSetup, some ⟨tables, r.membership.members.map Entry.address⟩,
        { Progress.zero with expected := r.membership.members.length }⟩ := by
  simp only [setup, hrun, htables]
  exact ⟨rfl, rfl⟩

theorem setsUp_of_ok {size : Option Nat} {tables : List (NodeId × FingerTable)}
    (hrun : r.phase.isRun = false)
    (htables : Layout.tables r.membership.members (size.getD r.config.defaultTableSize) =
      .ok tables) : r.setsUp (.setup size) = true := by
  rw [setsUp, (setup_eq_ok hrun htables).1]
  rfl

theorem setup_refused (size : Option Nat) (h : r.phase.isRun = true ∨
    ∃ e, Layout.tables r.membership.members (size.getD r.config.defaultTableSize) = .error e) :
    (r.setup size).2.isOk = false ∧ (r.setup size).1.stage = r.stage := by
  unfold setup
  split
  · exact ⟨rfl, rfl⟩
  · next hrun =>
    obtain ⟨e, he⟩ := h.resolve_left hrun
    simp only [he]
    exact ⟨rfl, trivial⟩

/-- A setup that succeeds has laid out tables, and counts the members that they are for. -/
theorem exists_tables_of_setup {size : Option Nat} {n : Nat} (hok : (r.setup size).2 = .ok n) :
    r.phase.isRun = false ∧ n = r.membership.members.length ∧
    ∃ tables, Layout.tables r.membership.members (size.getD r.config.defaultTableSize) =
      .ok tables := by
  have hisOk : (r.setup size).2.isOk = true := by rw [hok]; rfl
  have hrun : r.phase.isRun = false := by
    refine Bool.eq_false_iff.mpr fun hrun => ?_
    rw [(setup_refused size (.inl hrun)).1] at hisOk
    cases hisOk
  cases htables : Layout.tables r.membership.members (size.getD r.config.defaultTableSize) with
  | error e =>
    rw [(setup_refused size (.inr ⟨e, htables⟩)).1] at hisOk
    cases hisOk
  | ok tables =>
    rw [(setup_eq_ok hrun htables).1] at hok
    exact ⟨hrun, (Except.ok.inj hok).symm, tables, rfl⟩

theorem start_eq_ok {count : UInt32} (hcount : ¬ maxCount < count) (hphase : r.phase = .ready)
    (htold : (r.told (.taskInitiate count)).length ≠ 0) :
    (r.start count).2 = .ok (r.told (.taskInitiate count)).length ∧
    (r.start count).1.stage = ⟨.running, r.overlay,
      { r.progress with expected := (r.told (.taskInitiate count)).length, finished := 0 }⟩ := by
  have hstage := stage_broadcast r (.taskInitiate count)
  have hoverlay := congrArg Stage.overlay hstage
  have hprogress := congrArg Stage.progress hstage
  simp only [stage] at hoverlay hprogress
  simp only [start, if_neg hcount, hphase, broadcast_snd, if_neg htold, stage_setPhase, hoverlay,
    hprogress]
  exact ⟨trivial, trivial⟩

theorem starts_of_ok {count : UInt32} (hcount : ¬ maxCount < count) (hphase : r.phase = .ready)
    (htold : (r.told (.taskInitiate count)).length ≠ 0) : r.starts (.start count) = true := by
  rw [starts, (start_eq_ok hcount hphase htold).1]
  rfl

theorem start_refused (count : UInt32) (h : maxCount < count ∨ r.phase ≠ .ready ∨
    (r.told (.taskInitiate count)).length = 0) :
    (r.start count).2.isOk = false ∧ (r.start count).1.stage = r.stage := by
  unfold start
  split
  · exact ⟨rfl, rfl⟩
  · next hcount =>
    split
    · exact ⟨rfl, rfl⟩
    · exact ⟨rfl, rfl⟩
    · next hready =>
      have htold := (h.resolve_left hcount).resolve_left (not_not_intro hready)
      simp only [broadcast_snd, htold, if_true, stage_broadcast]
      exact ⟨rfl, trivial⟩
    · exact ⟨rfl, rfl⟩

/-! ### Every action -/

theorem moves_setup (r : Registry) (size : Option Nat) :
    Moves r (.setup size) (r.setup size).1.stage := by
  by_cases hrun : r.phase.isRun = true
  · obtain ⟨hfail, hsame⟩ := setup_refused size (.inl hrun)
    rw [hsame]
    exact .stays hfail rfl (fun _ => rfl) fun _ => rfl
  · cases htables : Layout.tables r.membership.members (size.getD r.config.defaultTableSize) with
    | error e =>
      obtain ⟨hfail, hsame⟩ := setup_refused size (.inr ⟨e, htables⟩)
      rw [hsame]
      exact .stays hfail rfl (fun _ => rfl) fun _ => rfl
    | ok tables =>
      rw [(setup_eq_ok (Bool.not_eq_true _ ▸ hrun) htables).2]
      exact .setsUp (Bool.not_eq_true _ ▸ hrun) htables

theorem moves_start (r : Registry) (count : UInt32) :
    Moves r (.start count) (r.start count).1.stage := by
  by_cases h : maxCount < count ∨ r.phase ≠ .ready ∨ (r.told (.taskInitiate count)).length = 0
  · obtain ⟨hfail, hsame⟩ := start_refused count h
    rw [hsame]
    exact .stays rfl hfail (fun _ => rfl) fun _ => rfl
  · obtain ⟨hcount, h⟩ := not_or.mp h
    obtain ⟨hphase, htold⟩ := not_or.mp h
    rw [(start_eq_ok hcount (Decidable.not_not.mp hphase) htold).2]
    exact .starts hcount (Decidable.not_not.mp hphase) htold

theorem moves_elapsed (r : Registry) (ms : Nat) : Moves r (.elapsed ms) (r.elapse ms).stage := by
  let clock := r.clock + ms
  let r' : Registry :=
    { r with clock := clock, timers := r.timers.filter fun t => !decide (t ≤ clock) }
  have htold : r'.told .trafficSummaryRequest = r.told .trafficSummaryRequest := by
    apply told_congr <;> rfl
  change Moves r _ (fireEach (r.timers.filter (· ≤ clock)).length r').stage
  rcases stage_fireEach (r.timers.filter (· ≤ clock)).length r' with h | ⟨hphase, h⟩
  · rw [h]
    exact .stays rfl rfl (fun _ => rfl) fun _ => rfl
  · rw [h, asked, htold]
    split
    · next hnobody => exact .asksNobody hphase hnobody
    · next hsome => exact .asks hphase hsome

/-- What leaving members do to a stage is a move. -/
theorem Stays.moves {a : Action} {s : Stage} (h : Stays r.stage s)
    (ha : a = .noticed ∨ ∃ link address id, a = .received link (.nodeDeregisters address id)) :
    Moves r a s := by
  rcases h with rfl | ⟨hup, rfl⟩
  · rcases ha with rfl | ⟨link, address, id, rfl⟩
    · exact .stays rfl rfl (fun _ => rfl) fun _ => rfl
    · exact .stays rfl rfl (fun _ => rfl) fun _ => rfl
  · exact .abandons ha hup

theorem moves_setupReported {link : LinkId} {peer : Peer} (hpeer : r.links.end? link = some peer)
    (status : Int32) (info : String) :
    Moves r (.received link (.overlaySetupStatus status info))
      (r.setupReported peer status info).stage := by
  unfold setupReported
  split
  · next hphase =>
    exact .stays rfl rfl (fun h => absurd h hphase) fun _ => rfl
  · next hphase =>
    replace hphase := Decidable.not_not.mp hphase
    split
    · next hneg =>
      rw [stage_notice, stage_log, stage, hphase]
      exact .fails hphase hpeer hneg
    · next hok =>
      dsimp only
      split
      · next hall =>
        rw [stage_notice, stage_setPhase]
        exact .completes hphase hpeer hok hall
      · next hmore =>
        rw [stage, hphase]
        exact .establishes hphase hpeer hok hmore

theorem moves_taskFinished {link : LinkId} {peer : Peer} (hpeer : r.links.end? link = some peer)
    (address : PeerAddress) (id : NodeId) :
    Moves r (.received link (.taskFinished address id)) (r.taskFinished address id).stage := by
  unfold taskFinished
  split
  · next hphase =>
    exact .stays rfl rfl (fun _ => rfl) fun h => absurd h hphase
  · next hphase =>
    replace hphase := Decidable.not_not.mp hphase
    dsimp only
    split
    · next hmore =>
      rw [stage, hphase]
      exact .finishes hphase hpeer hmore
    · next hall => exact .drains hphase hpeer hall

theorem moves_summaryReported {link : LinkId} {peer : Peer}
    (hpeer : r.links.end? link = some peer) (s : Summary) :
    Moves r (.received link (.trafficSummaryReport s)) (r.summaryReported s).stage := by
  unfold summaryReported
  split
  · exact .stays rfl rfl (fun _ => rfl) fun _ => rfl
  · next hphase =>
    replace hphase := Decidable.not_not.mp hphase
    dsimp only
    split
    · exact .stays rfl rfl (fun _ => rfl) fun _ => rfl
    · next hall =>
      change Moves r _ (notice _ _).stage
      rw [stage_notice, stage_setPhase]
      exact .summarises hphase hpeer hall

theorem moves_received (r : Registry) (link : LinkId) (m : Message) :
    Moves r (.received link m) (r.receive link m).stage := by
  unfold receive
  split
  · next peer hpeer =>
    cases m with
    | nodeRegisters address =>
      rw [handle, stage_register]
      exact .stays rfl rfl (fun _ => rfl) fun _ => rfl
    | nodeDeregisters address id =>
      exact (stays_deregister r link peer address id).moves (.inr ⟨link, address, id, rfl⟩)
    | overlaySetupStatus status info => exact moves_setupReported hpeer status info
    | taskFinished address id => exact moves_taskFinished hpeer address id
    | trafficSummaryReport s => exact moves_summaryReported hpeer s
    | _ => exact .stays rfl rfl (fun _ => rfl) fun _ => rfl
  -- on a connection that was never made, nothing can come in
  · next hpeer =>
    refine .stays rfl rfl (fun _ => ?_) fun _ => ?_
    · unfold report?
      split
      · next h => cases h; rw [hpeer]; rfl
      · rfl
    · unfold finish?
      split
      · next h => cases h; rw [hpeer]; rfl
      · rfl

/-- **Every action moves the stage in one of these ways.** -/
theorem moves (r : Registry) (a : Action) : Moves r a (r.act a).stage := by
  cases a with
  | connected peer => exact .stays rfl rfl (fun _ => rfl) fun _ => rfl
  | closed link => exact .stays rfl rfl (fun _ => rfl) fun _ => rfl
  | noticed => exact (stays_noticeClosed r).moves (.inl rfl)
  | received link m => exact moves_received r link m
  | setup size => exact moves_setup r size
  | start count => exact moves_start r count
  | elapsed ms => exact moves_elapsed r ms

/-! ### Phases that end -/

variable {a : Action} {s : Stage}

/-- A setup is over only when the last report that it waits for comes in. -/
theorem Moves.ready_of_awaitingSetup (h : Moves r a s) (hwait : r.phase = .awaitingSetup)
    (hready : s.phase = .ready) :
    ∃ rep, r.setsUp a = false ∧ r.report? a = some rep ∧ ¬ rep.status < 0 ∧
      s.overlay = r.overlay ∧ r.progress.established + 1 = r.progress.expected ∧
      r.progress.failed = 0 := by
  cases h with
  | stays => exact absurd (hwait.symm.trans hready) (by decide)
  | starts _ hp | finishes hp | drains hp | asks hp | asksNobody hp | summarises hp =>
    exact absurd (hwait.symm.trans hp) (by decide)
  | abandons | setsUp | fails | establishes => cases hready
  | @completes link peer status info hp hpeer hok hall =>
    exact ⟨⟨link, status⟩, rfl, report?_received hpeer status info, hok, rfl, hall⟩

/-- A run is over only when the last finish that it waits for comes in. -/
theorem Moves.draining_of_running (h : Moves r a s) (hrun : r.phase = .running)
    (hdrain : s.phase = .draining) :
    ∃ link, r.starts a = false ∧ r.finish? a = some link ∧ s.overlay = r.overlay ∧
      ¬ r.progress.finished + 1 < r.progress.expected := by
  cases h with
  | stays => exact absurd (hrun.symm.trans hdrain) (by decide)
  | fails hp | establishes hp | completes hp | starts _ hp | asks hp | asksNobody hp
  | summarises hp =>
    exact absurd (hrun.symm.trans hp) (by decide)
  | abandons | setsUp | finishes => cases hdrain
  | @drains link peer address id hp hpeer hall =>
    exact ⟨link, rfl, finish?_received hpeer address id, rfl, hall⟩

end Registry

end RingOverlay
