import Mathlib.Data.List.Perm.Subperm
import RingOverlay.Proofs.Registry.Consistency
import RingOverlay.Proofs.Registry.Mail
import RingOverlay.Proofs.Registry.Tally
import RingOverlay.Proofs.Traffic.Collector

/-!
# Registry — what a report is made of

While summaries are collected, the registry keeps the last one of every identifier, and publishes a
report when it has as many as nodes were asked.  It looks at the identifier that a summary names,
and not at who sent it.

`summaries h` are the summaries that have come in since they were last asked for, each with its
connection, and `askedNodes r` the nodes of the overlay that can be asked.  `Gathering h r` is the
invariant: the collector holds what has come in since then, and fewer than were asked for.

* `report_rows`: **a report has a row for every node that was asked, and for no other, if and only
  if what was last heard in the name of each identifier is such a node's own.**
-/

namespace RingOverlay

/-- A summary, and the connection that it came in on. -/
structure SummaryReport where
  link : LinkId
  summary : Summary
  deriving DecidableEq, Repr

/-- The phase of a registry, and what it has collected. -/
structure Gathered where
  phase : Phase
  collector : Collector

namespace Registry

/-- The phase, and what has been collected. -/
def gathered (r : Registry) : Gathered := ⟨r.phase, r.collector⟩

/-- The summary that an action brings in. -/
def summary? (r : Registry) : Action → Option SummaryReport
  | .received link (.trafficSummaryReport s) => (r.links.end? link).map fun _ => ⟨link, s⟩
  | _ => none

/-- Whether an action has summaries asked for. -/
def asks (r : Registry) (a : Action) : Bool :=
  r.phase == .draining && (r.act a).phase == .collecting

/-- The nodes that the present overlay was laid over. -/
def roster (r : Registry) : List Entry :=
  match r.overlay with
  | some o => ((o.tables.map Prod.fst).zip o.participants).map fun x => ⟨x.1, x.2⟩
  | none => []

/-- The nodes of the overlay for which a request for a summary can be queued. -/
def askedNodes (r : Registry) : List Entry :=
  r.roster.filter fun e => (r.send e.address .trafficSummaryRequest).2

namespace Step

/-- Whether summaries are asked for in this step. -/
def asks (s : Step) : Bool := s.before.asks s.action

/-- The summary that comes in with this step. -/
def summary? (s : Step) : Option SummaryReport := s.before.summary? s.action

end Step

/-- The summaries that have come in since they were last asked for. -/
def summaries (h : List Step) : List SummaryReport :=
  (since Step.asks h).filterMap Step.summary?

variable {r r' : Registry} {h : List Step} {x : Step} {a : Action}

theorem summaries_mark (hx : x.asks = true) : summaries (h ++ [x]) = [] := by
  rw [summaries, since_concat_mark hx, List.filterMap_nil]

theorem summaries_concat (hx : x.asks = false) :
    summaries (h ++ [x]) = summaries h ++ x.summary?.toList := by
  rw [summaries, since_concat hx, List.filterMap_append, ← summaries]
  cases hs : x.summary? with
  | none => rw [List.filterMap_cons_none hs]; rfl
  | some y => rw [List.filterMap_cons_some hs]; rfl

theorem summary?_received {link : LinkId} (hlink : (r.links.end? link).isSome) (s : Summary) :
    r.summary? (.received link (.trafficSummaryReport s)) = some ⟨link, s⟩ := by
  obtain ⟨peer, hpeer⟩ := Option.isSome_iff_exists.mp hlink
  rw [summary?, hpeer]
  rfl

theorem summary?_eq_some {y : SummaryReport} (h : r.summary? a = some y) :
    a = .received y.link (.trafficSummaryReport y.summary) ∧ (r.links.end? y.link).isSome := by
  unfold summary? at h
  split at h
  · obtain ⟨peer, hpeer, rfl⟩ := Option.map_eq_some_iff.mp h
    exact ⟨rfl, Option.isSome_of_eq_some hpeer⟩
  · cases h

/-! ### The nodes of an overlay -/

theorem roster_of_over {o : Overlay} {nodes : List Entry} (ho : r.overlay = some o)
    (hover : o.Over nodes) : r.roster = nodes := by
  rw [roster, ho]
  change ((o.tables.map Prod.fst).zip o.participants).map (fun x => Entry.mk x.1 x.2) = nodes
  rw [hover.ids, hover.addresses, List.zip_map', List.map_map]
  exact List.map_id nodes

/-- The nodes that can be asked are those whose address can be sent to, in the same order. -/
theorem told_of_over {o : Overlay} {nodes : List Entry} (ho : r.overlay = some o)
    (hover : o.Over nodes) :
    r.told .trafficSummaryRequest = r.askedNodes.map Entry.address := by
  rw [askedNodes, roster_of_over ho hover, told, ho]
  change o.participants.filter _ = _
  rw [hover.addresses, List.filter_map]
  rfl

/-! ### What keeps the collection -/

/-- What is collected stays the same, unless the registry is idle in the end. -/
def Keeps (g g' : Gathered) : Prop := g' = g ∨ g'.phase = .idle

theorem Keeps.refl (g : Gathered) : Keeps g g := .inl rfl

theorem Keeps.trans {g g' g'' : Gathered} (h : Keeps g g') (h' : Keeps g' g'') : Keeps g g'' := by
  rcases h' with rfl | hidle
  · exact h
  · exact .inr hidle

theorem Keeps.collector_eq (h : Keeps r.gathered r'.gathered) (hafter : r'.phase = .collecting) :
    r'.collector = r.collector := by
  rcases h with hsame | hidle
  · exact congrArg Gathered.collector hsame
  · exact absurd (hidle.symm.trans hafter) (by decide)

theorem gathered_congr (h : r'.quiet = r.quiet) : r'.gathered = r.gathered :=
  congr_of_quiet gathered (fun _ => rfl) h

@[simp] theorem gathered_log (r : Registry) (e : RegistryEvent) :
    (r.log e).gathered = r.gathered := rfl

@[simp] theorem gathered_notice (r : Registry) (line : String) :
    (r.notice line).gathered = r.gathered :=
  gathered_congr (quiet_notice r line)

theorem keeps_abandonOverlay (r : Registry) (a : PeerAddress) (reason : String) :
    Keeps r.gathered (r.abandonOverlay a reason).gathered := by
  unfold abandonOverlay
  split
  · exact .refl _
  · split
    · exact .inr rfl
    · exact .refl _

theorem keeps_connectionLost (r : Registry) (w : Watch) :
    Keeps r.gathered (r.connectionLost w).gathered := by
  unfold connectionLost
  split
  · refine .trans (.inl ?_) (keeps_abandonOverlay _ _ _)
    rw [gathered_notice, gathered_log]
    rfl
  · exact .refl _

theorem keeps_loseAll (ws : List Watch) (r : Registry) :
    Keeps r.gathered (loseAll ws r).gathered := by
  induction ws generalizing r with
  | nil => exact .refl _
  | cons w ws ih => exact (keeps_connectionLost r w).trans (ih _)

theorem gathered_register (r : Registry) (link : LinkId) (peer : Peer) (a : PeerAddress) :
    (r.register link peer a).gathered = r.gathered := by
  unfold register
  split
  · rw [gathered_congr (quiet_answerRegistration _ _ _ _), gathered_notice, gathered_log]
    rfl
  · rw [gathered_congr (quiet_answerRegistration _ _ _ _), gathered_notice, gathered_log]

theorem keeps_deregister (r : Registry) (link : LinkId) (peer : Peer) (a : PeerAddress)
    (id : NodeId) : Keeps r.gathered (r.deregister link peer a id).gathered := by
  unfold deregister
  split
  · next membership _ =>
    rw [gathered_congr (quiet_answerDeregistration _ _ _ _), gathered_notice, gathered_log]
    exact keeps_abandonOverlay { r with membership := membership, cache := r.cache.erase a } a _
  · rw [gathered_congr (quiet_answerDeregistration _ _ _ _), gathered_notice, gathered_log]
    exact .refl _

theorem keeps_setup (hphase : r.phase = .collecting) (size : Option Nat) :
    (r.setup size).1 = r := by
  have hrun : r.phase.isRun = true := by rw [hphase]; rfl
  rw [setup, if_pos hrun]

theorem keeps_start (hphase : r.phase = .collecting) (count : UInt32) :
    (r.start count).1 = r := by
  unfold start
  split
  · rfl
  · rw [hphase]

/-! ### What is collected -/

/-- While summaries are collected, every one that comes in is added. -/
theorem collector_act (hbefore : r.phase = .collecting) (hafter : (r.act a).phase = .collecting) :
    (r.act a).collector =
      (((r.summary? a).toList).map SummaryReport.summary).foldl Collector.add r.collector := by
  cases a with
  | connected peer | closed link => rfl
  | noticed => exact (keeps_loseAll _ _).collector_eq hafter
  | setup size => exact congrArg collector (keeps_setup hbefore size)
  | start count => exact congrArg collector (keeps_start hbefore count)
  | elapsed ms =>
    have haged := elapse_of_ne (r := r) (by rw [hbefore]; decide) ms
    change (r.elapse ms).collector = _
    rw [haged]
    rfl
  | received link m =>
    change (r.receive link m).phase = _ at hafter
    change (r.receive link m).collector = _
    cases hpeer : r.links.end? link with
    | none =>
      have hnone : r.summary? (.received link m) = none := by
        unfold summary?
        split
        · next h => cases h; rw [hpeer]; rfl
        · rfl
      rw [hnone, receive, hpeer]
      rfl
    | some peer =>
      have hhandle : r.receive link m = r.handle link peer m := by rw [receive, hpeer]
      rw [hhandle] at hafter ⊢
      cases m with
      | nodeRegisters address =>
        exact congrArg Gathered.collector (gathered_register r link peer address)
      | nodeDeregisters address id =>
        exact (keeps_deregister r link peer address id).collector_eq hafter
      | overlaySetupStatus status info =>
        have hlate : r.phase ≠ .awaitingSetup := by rw [hbefore]; decide
        rw [handle, setupReported, if_pos hlate]
        rfl
      | taskFinished address id =>
        have hlate : r.phase ≠ .running := by rw [hbefore]; decide
        rw [handle, taskFinished, if_pos hlate]
        rfl
      | trafficSummaryReport s =>
        rw [summary?_received (Option.isSome_of_eq_some hpeer)]
        rw [handle] at hafter ⊢
        unfold summaryReported at hafter ⊢
        rw [if_neg (not_not_intro hbefore)] at hafter ⊢
        dsimp only at hafter ⊢
        split at hafter
        · next hmore =>
          rw [if_pos hmore]
          rfl
        · change (notice _ _).gathered.phase = _ at hafter
          rw [gathered_notice] at hafter
          cases hafter
      | _ => rfl

/-- One more summary, and there are still fewer than were asked for. -/
theorem more_of_collecting {y : SummaryReport} (hsummary : r.summary? a = some y)
    (hbefore : r.phase = .collecting) (hafter : (r.act a).phase = .collecting) :
    (r.collector.add y.summary).size < r.progress.expected := by
  obtain ⟨rfl, hlink⟩ := summary?_eq_some hsummary
  obtain ⟨peer, hpeer⟩ := Option.isSome_iff_exists.mp hlink
  change (r.receive y.link _).phase = _ at hafter
  rw [receive, hpeer] at hafter
  change (r.summaryReported y.summary).phase = _ at hafter
  unfold summaryReported at hafter
  rw [if_neg (not_not_intro hbefore)] at hafter
  dsimp only at hafter
  split at hafter
  · next hmore => exact hmore
  · change (notice _ _).gathered.phase = _ at hafter
    rw [gathered_notice] at hafter
    cases hafter

/-- When summaries are asked for, nothing has been collected. -/
theorem collector_asks (h : r.asks a = true) : (r.act a).collector = .empty := by
  unfold asks at h
  rw [Bool.and_eq_true, beq_iff_eq, beq_iff_eq] at h
  obtain ⟨hbefore, hafter⟩ := h
  have hm := moves r a
  generalize hs : (r.act a).stage = s at hm
  have hphase : s.phase = .collecting := by rw [← hs]; exact hafter
  cases hm with
  | stays => exact absurd (hbefore.symm.trans hphase) (by decide)
  | abandons | setsUp | fails | establishes | completes | starts | finishes | drains | asksNobody
  | summarises => cases hphase
  | @asks ms hd htold =>
    change (r.elapse ms).collector = _
    rcases elapse_cases r ms with haged | ⟨-, -, hreq⟩
    -- time alone does not end the draining
    · change (r.elapse ms).phase = _ at hafter
      rw [haged] at hafter
      exact absurd (hbefore.symm.trans hafter) (by decide)
    · have hsent := gathered_congr (quiet_broadcast (r.aged ms).cleared .trafficSummaryRequest)
      rw [hreq, requestSummaries_eq (r := r.aged ms) hbefore]
      dsimp only
      split
      · exact congrArg Gathered.collector hsent
      · exact congrArg Gathered.collector hsent

/-! ### The invariant -/

/-- Summaries are being collected: what has been is what has come in since they were last asked for,
and fewer than were asked for. -/
structure Gathering (h : List Step) (r : Registry) : Prop where
  asked : ∃ x, last? Step.asks h = some x ∧ x.before.overlay = r.overlay ∧
    r.progress.expected = (x.before.told .trafficSummaryRequest).length
  collected : r.collector = .collect ((summaries h).map SummaryReport.summary)
  more : r.collector.size < r.progress.expected

theorem asks_iff : r.asks a = true ↔ r.phase = .draining ∧ (r.act a).phase = .collecting := by
  unfold asks
  rw [Bool.and_eq_true, beq_iff_eq, beq_iff_eq]

/-- Summaries are asked for, or are being collected already. -/
theorem collecting_cases (hafter : (r.act a).phase = .collecting) :
    (r.asks a = true ∧ (r.told .trafficSummaryRequest).length ≠ 0 ∧
      (r.act a).stage = ⟨.collecting, r.overlay,
        { r.progress with expected := (r.told .trafficSummaryRequest).length }⟩) ∨
    r.asks a = false ∧ r.phase = .collecting ∧ (r.act a).stage = r.stage := by
  have hm := moves r a
  generalize hs : (r.act a).stage = s at hm
  have hphase : s.phase = .collecting := by rw [← hs]; exact hafter
  cases hm with
  | stays =>
    refine .inr ⟨Bool.eq_false_iff.mpr fun hasks => ?_, hphase, rfl⟩
    exact absurd ((asks_iff.mp hasks).1.symm.trans hphase) (by decide)
  | abandons | setsUp | fails | establishes | completes | starts | finishes | drains | asksNobody
  | summarises => cases hphase
  | asks hdraining htold => exact .inl ⟨asks_iff.mpr ⟨hdraining, hafter⟩, htold, rfl⟩

/-- The summaries of one more step. -/
theorem collect_concat_step (hx : x.asks = false) :
    Collector.collect ((summaries (h ++ [x])).map SummaryReport.summary) =
      ((x.summary?.toList).map SummaryReport.summary).foldl Collector.add
        (.collect ((summaries h).map SummaryReport.summary)) := by
  rw [summaries_concat hx, List.map_append, Collector.collect, List.foldl_append]
  rfl

/-- **Every action keeps the collection.** -/
theorem Gathering.act (hg : r.phase = .collecting → Gathering h r)
    (hafter : (r.act a).phase = .collecting) : Gathering (h ++ [⟨r, a⟩]) (r.act a) := by
  rcases collecting_cases hafter with ⟨hasks, htold, hstage⟩ | ⟨hasks, hbefore, hstage⟩
  · have hexpected : (r.act a).progress.expected = (r.told .trafficSummaryRequest).length :=
      congrArg (Progress.expected ∘ Stage.progress) hstage
    have hempty := collector_asks hasks
    refine ⟨⟨⟨r, a⟩, last?_concat_mark hasks, (congrArg Stage.overlay hstage).symm, hexpected⟩,
      ?_, ?_⟩
    · rw [hempty, summaries_mark (x := ⟨r, a⟩) hasks]
      rfl
    · rw [hempty, hexpected]
      exact Nat.pos_of_ne_zero htold
  · obtain ⟨⟨y, hlast, hoverlay, hexpected⟩, hcollected, hmore⟩ := hg hbefore
    have hprogress : (r.act a).progress = r.progress := congrArg Stage.progress hstage
    have hcollector := collector_act hbefore hafter
    refine ⟨⟨y, ?_, ?_, ?_⟩, ?_, ?_⟩
    · rw [last?_concat hasks, hlast]
    · exact hoverlay.trans (congrArg Stage.overlay hstage).symm
    · rw [hprogress, hexpected]
    · rw [collect_concat_step (x := ⟨r, a⟩) hasks, ← hcollected, hcollector]
      rfl
    · rw [hprogress, hcollector]
      cases hsummary : r.summary? a with
      | none => exact hmore
      | some z => exact more_of_collecting hsummary hbefore hafter

/-- The collection is kept in every run. -/
theorem gathering_run (config : RegistryConfig) (draws : Draws) (as : List Action) :
    ((initial config draws).run as).phase = .collecting →
      Gathering ((initial config draws).history as) ((initial config draws).run as) := by
  induction as using List.reverseRecOn with
  | nil => exact fun hphase => absurd (show Phase.idle = .collecting from hphase) (by decide)
  | append_singleton as a ih =>
    rw [history_concat, run_concat]
    exact Gathering.act ih

/-! ### What a report is made of -/

/-- A summary is the own one of one of `nodes`: it names the node, and has come in over the
connection that the node is registered on. -/
def OwnOf (r : Registry) (nodes : List Entry) (reports : List SummaryReport) (s : Summary) : Prop :=
  ∃ e ∈ nodes, e.id = s.id ∧ ∃ y ∈ reports, y.summary = s ∧ r.cache.get? e.address = some y.link

instance (r : Registry) (nodes : List Entry) (reports : List SummaryReport) (s : Summary) :
    Decidable (OwnOf r nodes reports s) :=
  inferInstanceAs (Decidable (∃ e ∈ nodes, _))

/-- One row for each of `nodes` and none for anybody else, and every row is the node's own. -/
structure Faithful (r : Registry) (nodes : List Entry) (reports : List SummaryReport)
    (rows : List Summary) : Prop where
  ids : (rows.map Summary.id).Perm (nodes.map Entry.id)
  own : ∀ s ∈ rows, OwnOf r nodes reports s

/-- As many rows as nodes, all of different identifiers, are faithful if every row is some node's
own. -/
theorem faithful_iff {nodes : List Entry} {reports : List SummaryReport} {rows : List Summary}
    (hlen : rows.length = nodes.length) (hascend : rows.Pairwise fun s t => s.id < t.id) :
    Faithful r nodes reports rows ↔ ∀ s ∈ rows, OwnOf r nodes reports s := by
  refine ⟨Faithful.own, fun hown => ⟨?_, hown⟩⟩
  have hnodup : (rows.map Summary.id).Nodup :=
    List.pairwise_map.mpr (hascend.imp fun hlt => Fin.ne_of_lt hlt)
  have hsub : rows.map Summary.id ⊆ nodes.map Entry.id := fun id hid => by
    obtain ⟨s, hs, rfl⟩ := List.mem_map.mp hid
    obtain ⟨e, he, hsame, -⟩ := hown s hs
    exact hsame ▸ List.mem_map_of_mem he
  exact (List.subperm_of_subset hnodup hsub).perm_of_length_le (by simp [hlen])

/-- The last summary of a collection. -/
theorem Gathering.publish {link : LinkId} {s : Summary} (hg : Gathering h r)
    (hphase : r.phase = .collecting) (hlink : (r.links.end? link).isSome)
    (hall : ¬ (r.collector.add s).size < r.progress.expected)
    (hx : x = ⟨r, .received link (.trafficSummaryReport s)⟩) :
    (∃ y, last? Step.asks (h ++ [x]) = some y ∧ y.before.overlay = r.overlay ∧
      (r.collector.add s).size = (y.before.told .trafficSummaryRequest).length) ∧
    r.collector.add s = .collect ((summaries (h ++ [x])).map SummaryReport.summary) := by
  subst hx
  obtain ⟨⟨y, hlast, hoverlay, hexpected⟩, hcollected, hmore⟩ := hg
  have hasks : Step.asks ⟨r, .received link (.trafficSummaryReport s)⟩ = false := by
    refine Bool.eq_false_iff.mpr fun hasks => ?_
    exact absurd ((asks_iff.mp hasks).1.symm.trans hphase) (by decide)
  have hsummary : Step.summary? ⟨r, .received link (.trafficSummaryReport s)⟩ = some ⟨link, s⟩ :=
    summary?_received hlink s
  refine ⟨⟨y, ?_, hoverlay, ?_⟩, ?_⟩
  · rw [last?_concat hasks, hlast]
  · have hstep := Collector.size_add_le r.collector s
    omega
  · rw [collect_concat_step hasks, ← hcollected, hsummary]
    rfl

/-- **What a report is made of.**  In every run of a registry, a report that is published is about
the overlay that is still up, and has as many rows as nodes were asked for their summaries,
ascending by identifier.  Its rows are what was last heard since then in the name of each
identifier.

So it has one row for each node that was asked and none for anybody else, every row the node's own
and sent over the connection that it is registered on, if and only if whatever was last heard in the
name of an identifier is such a node's own: a summary that names somebody else takes the place of
one that is missing. -/
theorem report_rows (config : RegistryConfig) (draws : Draws) (as : List Action) (a : Action)
    (hr : r' = (initial config draws).run (as ++ [a]))
    (hh : h = (initial config draws).history (as ++ [a])) {new : List Report} {report : Report}
    (hnew : r'.reports = new ++ ((initial config draws).run as).reports) (hreport : report ∈ new) :
    ∃ x, last? Step.asks h = some x ∧ x.before.overlay = r'.overlay ∧ r'.overlay.isSome ∧
      report.rows.length = x.before.askedNodes.length ∧
      report.rows.Pairwise (fun s t => s.id < t.id) ∧
      (∀ s, s ∈ report.rows ↔ LastWord ((summaries h).map SummaryReport.summary) s) ∧
      (Faithful r' x.before.askedNodes (summaries h) report.rows ↔
        ∀ s, LastWord ((summaries h).map SummaryReport.summary) s →
          OwnOf r' x.before.askedNodes (summaries h) s) := by
  have hgathering := gathering_run config draws as
  have hsound := (Occurs.initial.run as : Occurs config draws _).sound
  rw [run_concat] at hr
  rw [history_concat] at hh
  generalize (initial config draws).run as = r at *
  rcases reports_act r a with hsame | ⟨link, s, rfl, hlink, hphase, hall, hpublished⟩
  · rw [hr, hsame, List.self_eq_append_left] at hnew
    rw [hnew] at hreport
    exact absurd hreport List.not_mem_nil
  have hnew' : [(r.collector.add s).take.1] = new := by
    rw [hr, hpublished] at hnew
    exact List.append_cancel_right hnew
  rw [← hnew', List.mem_singleton] at hreport
  obtain ⟨⟨x, hlast, hoverlay, hsize⟩, hcollected⟩ :=
    (hgathering hphase).publish hphase hlink hall rfl
  rw [← hh] at hlast hcollected
  have hrows : report.rows = (Collector.collect ((summaries h).map SummaryReport.summary)).summaries
    := by rw [hreport, ← hcollected]; rfl
  -- somebody was asked, and so there is an overlay
  obtain ⟨o, ho⟩ : ∃ o, r.overlay = some o := by
    refine Option.ne_none_iff_exists'.mp fun hnone => ?_
    have hmore := (hgathering hphase).more
    have htold : (x.before.told .trafficSummaryRequest).length = 0 := by
      rw [told, hoverlay, hnone]
      rfl
    omega
  have hafter : r'.overlay = some o := by
    obtain ⟨peer, hpeer⟩ := Option.isSome_iff_exists.mp hlink
    have hroll := congrArg Roll.overlay (roll_summaryReported r s)
    rw [hr, ← ho, ← show (r.summaryReported s).overlay = r.overlay from hroll]
    change (r.receive link _).overlay = _
    rw [receive, hpeer]
    rfl
  obtain ⟨nodes, hover, -, -⟩ := hsound.laidOut o ho
  have hlen : report.rows.length = x.before.askedNodes.length := by
    have htold := told_of_over (hoverlay.trans ho) hover
    rw [htold, List.length_map] at hsize
    rw [hreport, ← hsize]
    rfl
  have hascend : report.rows.Pairwise fun s t => s.id < t.id := by
    rw [hrows]
    exact Collector.ascending_collect _
  have hmem : ∀ s, s ∈ report.rows ↔ LastWord ((summaries h).map SummaryReport.summary) s := by
    intro s
    rw [hrows]
    exact Collector.mem_collect_iff _
  refine ⟨x, hlast, ?_, by rw [hafter]; rfl, hlen, hascend, hmem, ?_⟩
  · rw [hoverlay, ho, hafter]
  · rw [faithful_iff hlen hascend]
    exact forall_congr' fun s => imp_congr_left (hmem s)

/-- Two nodes have sent their packets, and are asked for their summaries. -/
def pairAsked : List Action := pairStarts ++ [fiveFinishes, nineFinishes, .elapsed 5000]

/-- A summary, in the name of `id`, that counts three packets sent. -/
def threeSent (id : NodeId) : Summary := ⟨id, 3, 0, 0, 0, 0⟩

/-- The first node reports that it has sent three packets. -/
def fiveSummarises : Action := .received 0 (.trafficSummaryReport (threeSent (5 : NodeId)))

/-- The second node reports that it has sent three packets. -/
def nineSummarises : Action := .received 1 (.trafficSummaryReport (threeSent (9 : NodeId)))

/-- Both nodes report what they have sent. -/
theorem report_rows_pair :
    ∃ x report, (pairRegistry.run (pairAsked ++ [fiveSummarises] ++ [nineSummarises])).reports =
        [report] ∧
      last? Step.asks (pairRegistry.history (pairAsked ++ [fiveSummarises] ++ [nineSummarises])) =
        some x ∧
      x.before.askedNodes.map (fun e => e.id.val) = [5, 9] ∧
      Faithful (pairRegistry.run (pairAsked ++ [fiveSummarises] ++ [nineSummarises]))
        x.before.askedNodes
        (summaries (pairRegistry.history (pairAsked ++ [fiveSummarises] ++ [nineSummarises])))
        report.rows := by
  let report := (Collector.collect [threeSent (5 : NodeId), threeSent (9 : NodeId)]).take.1
  have hnew : (pairRegistry.run (pairAsked ++ [fiveSummarises] ++ [nineSummarises])).reports =
      [report] ++ (pairRegistry.run (pairAsked ++ [fiveSummarises])).reports := by decide
  obtain ⟨x, hx, -, -, -, -, hmem, hiff⟩ := report_rows {} (.ofList [5, 9])
    (pairAsked ++ [fiveSummarises]) nineSummarises rfl rfl hnew (List.mem_singleton_self report)
  refine ⟨x, report, hnew, hx, ?_, hiff.mpr fun s hs => ?_⟩
  · cases hx
    decide
  · have hrow : s ∈ [threeSent (5 : NodeId), threeSent (9 : NodeId)] := (hmem s).mpr hs
    cases hx
    clear hs
    revert s
    decide

/-- The first node reports in the name of a node that does not exist: the report is complete, and
the second node has not been heard of. -/
theorem report_rows_foreign :
    ∃ report ∈ (pairRegistry.run (pairAsked ++ [fiveSummarises] ++
        [.received 0 (.trafficSummaryReport (threeSent (77 : NodeId)))])).reports,
      report.rows.map (fun s => s.id.val) = [5, 77] ∧
      ∃ x ∈ last? Step.asks (pairRegistry.history (pairAsked ++ [fiveSummarises] ++
          [.received 0 (.trafficSummaryReport (threeSent (77 : NodeId)))])),
        x.before.askedNodes.map (fun e => e.id.val) = [5, 9] := by
  decide

end Registry

end RingOverlay
