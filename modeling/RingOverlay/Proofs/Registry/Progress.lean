import RingOverlay.Proofs.Registry.Collection
import RingOverlay.Proofs.Registry.Deeds
import RingOverlay.Proofs.Registry.Losses

/-!
# Registry — phase and progress in step

The phase of a registry, its overlay, the progress made on it and what has been collected are kept
apart, and are written one by one; the number that is expected is written by the setup, by the start
and by the request for summaries, each with a meaning of its own.

`InStep r` says what the phase has to say about all of them.  It is shown for the stage, move by
move (`Moves.coherent`), and for the ledger, deed by deed (`Deed.tidy`).  `Transition r a p` says
that the action `a` may lead to the phase `p`.

* `progress_in_step`: **in whatever may happen to a registry, its phase and its progress are in
  step, and its phase goes round as it should.**
-/

namespace RingOverlay

/-- An overlay is laid over somebody. -/
theorem Layout.ne_nil_of_tables {members : List Entry} {size : Nat}
    {ts : List (NodeId × FingerTable)} (h : tables members size = .ok ts) : members ≠ [] := by
  rintro rfl
  cases h

/-! ### The stage -/

/-- The setup of an overlay is over: as many nodes as take part have reported it, and none has
failed. -/
structure Progress.Established (p : Progress) (o : Overlay) : Prop where
  failed : p.failed = 0
  established : p.established = o.participants.length

namespace Stage

/-- The stages that there are: for each phase, the overlay and the progress that go with it. -/
inductive Coherent : Stage → Prop where
  | idle : Coherent .idle
  | awaitingSetup {o : Overlay} {p : Progress} (hexpected : p.expected = o.participants.length)
      (hsome : 1 ≤ p.expected) (hfinished : p.finished = 0)
      (hopen : p.failed = 0 → p.established < p.expected) : Coherent ⟨.awaitingSetup, some o, p⟩
  | ready {o : Overlay} {p : Progress} (hup : p.Established o) : Coherent ⟨.ready, some o, p⟩
  | running {o : Overlay} {p : Progress} (hup : p.Established o) (hsome : 1 ≤ p.expected)
      (hle : p.expected ≤ o.participants.length) (hmore : p.finished < p.expected) :
      Coherent ⟨.running, some o, p⟩
  | draining {o : Overlay} {p : Progress} (hup : p.Established o) (hall : p.finished = p.expected) :
      Coherent ⟨.draining, some o, p⟩
  | collecting {o : Overlay} {p : Progress} (hup : p.Established o) (hsome : 1 ≤ p.expected)
      (hle : p.expected ≤ o.participants.length) : Coherent ⟨.collecting, some o, p⟩

namespace Coherent

variable {s : Stage}

theorem eq_idle_iff (h : s.Coherent) : s.phase = .idle ↔ s.overlay = none := by
  cases h with
  | idle => simp [Stage.idle]
  | _ => simp

theorem of_idle (h : s.Coherent) (hp : s.phase = .idle) : s.progress = .zero := by
  cases h with
  | idle => rfl
  | _ => cases hp

theorem of_awaitingSetup (h : s.Coherent) (hp : s.phase = .awaitingSetup) :
    ∃ o, s.overlay = some o ∧ s.progress.expected = o.participants.length ∧
      1 ≤ s.progress.expected ∧ s.progress.finished = 0 ∧
      (s.progress.failed = 0 → s.progress.established < s.progress.expected) := by
  cases h with
  | awaitingSetup hexpected hsome hfinished hopen =>
    exact ⟨_, rfl, hexpected, hsome, hfinished, hopen⟩
  | _ => cases hp

theorem of_ready (h : s.Coherent) (hp : s.phase = .ready) :
    ∃ o, s.overlay = some o ∧ s.progress.Established o := by
  cases h with
  | ready hup => exact ⟨_, rfl, hup⟩
  | _ => cases hp

theorem of_running (h : s.Coherent) (hp : s.phase = .running) :
    ∃ o, s.overlay = some o ∧ s.progress.Established o ∧ 1 ≤ s.progress.expected ∧
      s.progress.expected ≤ o.participants.length ∧ s.progress.finished < s.progress.expected := by
  cases h with
  | running hup hsome hle hmore => exact ⟨_, rfl, hup, hsome, hle, hmore⟩
  | _ => cases hp

theorem of_draining (h : s.Coherent) (hp : s.phase = .draining) :
    ∃ o, s.overlay = some o ∧ s.progress.Established o ∧
      s.progress.finished = s.progress.expected := by
  cases h with
  | draining hup hall => exact ⟨_, rfl, hup, hall⟩
  | _ => cases hp

theorem of_collecting (h : s.Coherent) (hp : s.phase = .collecting) :
    ∃ o, s.overlay = some o ∧ s.progress.Established o ∧ 1 ≤ s.progress.expected ∧
      s.progress.expected ≤ o.participants.length := by
  cases h with
  | collecting hup hsome hle => exact ⟨_, rfl, hup, hsome, hle⟩
  | _ => cases hp

end Coherent

end Stage

namespace Registry

variable {r r' : Registry} {a : Action} {size : Nat} {ws : List Watch}

/-- Nobody is told who does not take part. -/
theorem length_told_le {o : Overlay} (ho : r.overlay = some o) (m : Message) :
    (r.told m).length ≤ o.participants.length := by
  rw [told, ho]
  exact List.length_filter_le _ _

/-- **Every move keeps the stage coherent.** -/
theorem Moves.coherent {s : Stage} (hm : Moves r a s) (h : r.stage.Coherent) : s.Coherent := by
  cases hm with
  | stays => exact h
  | abandons => exact .idle
  | setsUp hrun htables =>
    have hsome := List.length_pos_iff.mpr (Layout.ne_nil_of_tables htables)
    exact .awaitingSetup (List.length_map _).symm hsome rfl fun _ => hsome
  | fails hphase hpeer hneg =>
    obtain ⟨o, ho, hexpected, hsome, hfinished, -⟩ := h.of_awaitingSetup hphase
    rw [show r.overlay = some o from ho]
    exact .awaitingSetup hexpected hsome hfinished fun hnone => absurd hnone (Nat.succ_ne_zero _)
  | establishes hphase hpeer hok hmore =>
    obtain ⟨o, ho, hexpected, hsome, hfinished, hopen⟩ := h.of_awaitingSetup hphase
    rw [show r.overlay = some o from ho]
    refine .awaitingSetup hexpected hsome hfinished fun hnone => ?_
    exact Nat.lt_of_le_of_ne (hopen hnone) fun hall => hmore ⟨hall, hnone⟩
  | completes hphase hpeer hok hall =>
    obtain ⟨o, ho, hexpected, -⟩ := h.of_awaitingSetup hphase
    rw [show r.overlay = some o from ho]
    exact .ready ⟨hall.2, hall.1.trans hexpected⟩
  | @starts count hcount hphase htold =>
    obtain ⟨o, ho, hup⟩ := h.of_ready hphase
    have hsome := Nat.pos_of_ne_zero htold
    have hle := length_told_le ho (.taskInitiate count)
    rw [show r.overlay = some o from ho]
    exact .running ⟨hup.failed, hup.established⟩ hsome hle hsome
  | finishes hphase hpeer hmore =>
    obtain ⟨o, ho, hup, hsome, hle, -⟩ := h.of_running hphase
    rw [show r.overlay = some o from ho]
    exact .running ⟨hup.failed, hup.established⟩ hsome hle hmore
  | drains hphase hpeer hall =>
    obtain ⟨o, ho, hup, -, -, hmore⟩ := h.of_running hphase
    rw [show r.overlay = some o from ho]
    exact .draining ⟨hup.failed, hup.established⟩ (Nat.le_antisymm hmore (Nat.not_lt.mp hall))
  | asks hphase htold =>
    obtain ⟨o, ho, hup, -⟩ := h.of_draining hphase
    have hle := length_told_le ho .trafficSummaryRequest
    rw [show r.overlay = some o from ho]
    exact .collecting ⟨hup.failed, hup.established⟩ (Nat.pos_of_ne_zero htold) hle
  | asksNobody hphase htold =>
    obtain ⟨o, ho, hup, -⟩ := h.of_draining hphase
    rw [show r.overlay = some o from ho]
    exact .ready hup
  | summarises hphase hpeer hall =>
    obtain ⟨o, ho, hup, -⟩ := h.of_collecting hphase
    rw [show r.overlay = some o from ho]
    exact .ready hup

end Registry

/-! ### The ledger -/

namespace Ledger

/-- Summaries are collected in one phase only, and there are fewer of them than are waited for. -/
structure Tidy (l : Ledger) : Prop where
  empty : l.phase ≠ .collecting → l.collector = .empty
  more : l.phase = .collecting → l.collector.size < l.expected

theorem Tidy.of_empty {l : Ledger} (hphase : l.phase ≠ .collecting)
    (hempty : l.collector = .empty) : l.Tidy :=
  ⟨fun _ => hempty, fun hp => absurd hp hphase⟩

theorem Tidy.abandon {l : Ledger} (h : l.Tidy) (a : PeerAddress) : (l.abandon a).Tidy := by
  rcases l.abandon_cases a with ⟨o, -, -, hidle⟩ | ⟨hsame, -⟩
  · rw [hidle]
    exact .of_empty (by simp) rfl
  · rwa [hsame]

end Ledger

namespace Registry

variable {r r' : Registry} {a : Action} {size : Nat} {ws : List Watch}

/-- **Every deed keeps the ledger tidy.** -/
theorem Deed.tidy {l : Ledger} {post : LinkId → List Message} (hd : Deed r a l post)
    (h : r.ledger.Tidy) : l.Tidy := by
  cases hd with
  | stays | refuses => exact h
  | admits => exact ⟨h.empty, h.more⟩
  | releases info he =>
    refine Ledger.Tidy.abandon ?_ _
    exact ⟨h.empty, h.more⟩
  | setsUp hrun htables =>
    have hphase : r.phase ≠ .collecting := by
      intro hp
      rw [hp] at hrun
      cases hrun
    exact .of_empty (by simp) (h.empty hphase)
  | advances hp =>
    rcases hp with ⟨hphase, rfl⟩ | ⟨hphase, rfl⟩
    · exact .of_empty (by simp) (h.empty (by simp [ledger, hphase]))
    · exact .of_empty (by simp) (h.empty (by simp [ledger, hphase]))
  | starts | asksNobody | publishes => exact .of_empty (by simp) rfl
  | asks hphase htold => exact ⟨fun hp => absurd rfl hp, fun _ => Nat.pos_of_ne_zero htold⟩
  | collects hphase hmore => exact ⟨fun hp => absurd hphase hp, fun _ => hmore⟩

theorem tidy_connectionLost (h : r.ledger.Tidy) (w : Watch) : (r.connectionLost w).ledger.Tidy := by
  unfold connectionLost
  split
  · dsimp only
    rw [ledger_abandonOverlay, ledger_notice]
    refine Ledger.Tidy.abandon ?_ _
    exact ⟨h.empty, h.more⟩
  · exact h

theorem tidy_loseAll (h : r.ledger.Tidy) (ws : List Watch) : (loseAll ws r).ledger.Tidy := by
  induction ws generalizing r with
  | nil => exact h
  | cons w ws ih => exact ih (tidy_connectionLost h w)

theorem tidy_act (h : r.ledger.Tidy) (a : Action) : (r.act a).ledger.Tidy := by
  cases a with
  | connected peer | closed link => exact ⟨h.empty, h.more⟩
  | noticed =>
    refine tidy_loseAll ?_ r.overdue
    exact ⟨h.empty, h.more⟩
  | received link m => exact (deed_received r link m).tidy h
  | setup size => exact (deed_setup r size).tidy h
  | start count => exact (deed_start r count).tidy h
  | elapsed ms => exact (deed_elapsed r ms).tidy h

/-! ### Whatever may happen -/

variable {config : RegistryConfig} {draws : Draws}

theorem Occurs.coherent (h : Occurs config draws r) : r.stage.Coherent := by
  induction h with
  | initial => exact .idle
  | act h a ih => exact (moves _ a).coherent ih
  | @notice r w h hw hclosed ih =>
    rcases stays_connectionLost { r with watches := r.watches.erase w } w with hsame | ⟨-, hidle⟩
    · rw [hsame]
      exact ih
    · rw [hidle]
      exact .idle

theorem Occurs.tidy (h : Occurs config draws r) : r.ledger.Tidy := by
  induction h with
  | initial =>
    have hphase : (Registry.initial config draws).ledger.phase = .idle := rfl
    exact .of_empty (by simp [hphase]) rfl
  | act h a ih => exact tidy_act ih a
  | notice h hw hclosed ih =>
    refine tidy_connectionLost ?_ _
    exact ⟨ih.empty, ih.more⟩

/-- The phase of a registry, its overlay, its progress and what it has collected are in step. -/
structure InStep (r : Registry) : Prop where
  idle_iff : r.phase = .idle ↔ r.overlay = none
  idle : r.phase = .idle → r.progress = .zero
  collected : r.collector ≠ .empty → r.phase = .collecting
  awaitingSetup : r.phase = .awaitingSetup →
    r.progress.expected = r.participants.length ∧ 1 ≤ r.progress.expected ∧
      r.progress.finished = 0 ∧
      (r.progress.failed = 0 → r.progress.established < r.progress.expected)
  established : r.phase = .ready ∨ r.phase.isRun = true →
    r.progress.failed = 0 ∧ r.progress.established = r.participants.length
  running : r.phase = .running → 1 ≤ r.progress.expected ∧
    r.progress.expected ≤ r.participants.length ∧ r.progress.finished < r.progress.expected
  draining : r.phase = .draining → r.progress.finished = r.progress.expected
  collecting : r.phase = .collecting → 1 ≤ r.progress.expected ∧
    r.progress.expected ≤ r.participants.length ∧ r.collector.size < r.progress.expected

theorem participants_of_some {o : Overlay} (ho : r.overlay = some o) :
    r.participants = o.participants := by
  rw [participants, ho]

/-- Once it is set up, an overlay stays so until it is dropped. -/
theorem exists_established (h : r.stage.Coherent) (hp : r.phase = .ready ∨ r.phase.isRun = true) :
    ∃ o, r.overlay = some o ∧ r.progress.Established o := by
  rcases hp with hp | hp
  · exact h.of_ready hp
  · cases hphase : r.phase with
    | idle | awaitingSetup | ready =>
      rw [hphase] at hp
      cases hp
    | running =>
      obtain ⟨o, ho, hup, -⟩ := h.of_running hphase
      exact ⟨o, ho, hup⟩
    | draining =>
      obtain ⟨o, ho, hup, -⟩ := h.of_draining hphase
      exact ⟨o, ho, hup⟩
    | collecting =>
      obtain ⟨o, ho, hup, -⟩ := h.of_collecting hphase
      exact ⟨o, ho, hup⟩

theorem inStep (h : r.stage.Coherent) (ht : r.ledger.Tidy) : InStep r where
  idle_iff := h.eq_idle_iff
  idle := h.of_idle
  collected hsome := Decidable.not_not.mp fun hp => hsome (ht.empty hp)
  awaitingSetup hp := by
    obtain ⟨o, ho, hrest⟩ := h.of_awaitingSetup hp
    rw [participants_of_some ho]
    exact hrest
  established hp := by
    obtain ⟨o, ho, hup⟩ := exists_established h hp
    rw [participants_of_some ho]
    exact ⟨hup.failed, hup.established⟩
  running hp := by
    obtain ⟨o, ho, -, hrest⟩ := h.of_running hp
    rw [participants_of_some ho]
    exact hrest
  draining hp := by
    obtain ⟨o, -, -, hall⟩ := h.of_draining hp
    exact hall
  collecting hp := by
    obtain ⟨o, ho, -, hsome, hle⟩ := h.of_collecting hp
    rw [participants_of_some ho]
    exact ⟨hsome, hle, ht.more hp⟩

/-! ### From phase to phase -/

/-- The phases that an action may lead to. -/
inductive Transition (r : Registry) : Action → Phase → Prop where
  | stays {a : Action} : Transition r a r.phase
  | setsUp {size : Option Nat}
      (hphase : r.phase = .idle ∨ r.phase = .awaitingSetup ∨ r.phase = .ready) :
      Transition r (.setup size) .awaitingSetup
  | completes {link : LinkId} {status : Int32} {info : String} (hphase : r.phase = .awaitingSetup) :
      Transition r (.received link (.overlaySetupStatus status info)) .ready
  | starts {count : UInt32} (hphase : r.phase = .ready) : Transition r (.start count) .running
  | drains {link : LinkId} {address : PeerAddress} {id : NodeId} (hphase : r.phase = .running) :
      Transition r (.received link (.taskFinished address id)) .draining
  | asks {ms : Nat} (hphase : r.phase = .draining) : Transition r (.elapsed ms) .collecting
  | asksNobody {ms : Nat} (hphase : r.phase = .draining) : Transition r (.elapsed ms) .ready
  | summarises {link : LinkId} {s : Summary} (hphase : r.phase = .collecting) :
      Transition r (.received link (.trafficSummaryReport s)) .ready
  | abandons {a : Action}
      (ha : a = .noticed ∨ ∃ link address id, a = .received link (.nodeDeregisters address id))
      (hleaves : ParticipantLeaves r (r.act a)) : Transition r a .idle

theorem Without.leaves {gone : PeerAddress → Bool} (hw : Without gone r r')
    (h : Sound size ws r.roll) :
    r'.stage = r.stage ∨ r'.stage = .idle ∧ ParticipantLeaves r r' := by
  rw [hw.stage_eq h]
  split
  · next hleaves => exact .inr ⟨rfl, hleaves⟩
  · exact .inl rfl

/-- An experiment that a request to leave puts an end to, has lost whoever has left. -/
theorem leaves_of_deregister {k : LinkId} {b : PeerAddress} {id : NodeId} (hbusy : r.phase ≠ .idle)
    (hidle : (r.act (.received k (.nodeDeregisters b id))).phase = .idle) :
    ParticipantLeaves r (r.act (.received k (.nodeDeregisters b id))) := by
  have hd := deed_received r k (.nodeDeregisters b id)
  generalize hl : (r.act (.received k (.nodeDeregisters b id))).ledger = l at hd
  have hphase : l.phase = .idle := by rw [← hl]; exact hidle
  generalize r.posted (.received k (.nodeDeregisters b id)) = post at hd
  cases hd with
  | stays | refuses => exact absurd hphase hbusy
  | advances hp =>
    rcases hp with ⟨-, rfl⟩ | ⟨-, rfl⟩
    · cases hphase
    · cases hphase
  | releases info he =>
    rcases (r.ledger.without id b).abandon_cases b with ⟨o, ho, hb, -⟩ | ⟨hsame, -⟩
    · refine ⟨⟨id, b⟩, he, fun hkept => ?_, ?_⟩
      · have hmembers : (r.act (.received k (.nodeDeregisters b id))).membership = _ :=
          congrArg (Roll.membership ∘ Ledger.roll) hl
        rw [hmembers, Function.comp_apply, Ledger.membership_abandon] at hkept
        exact (Membership.mem_erase.mp hkept).2 rfl
      · rw [participants_of_some ho]
        exact hb
    · rw [hsame] at hphase
      exact absurd hphase hbusy

theorem transition (h : Occurs config draws r) (a : Action) :
    Transition r a (r.act a).phase := by
  have hm := moves r a
  generalize hs : (r.act a).stage = s at hm
  have hnext : (r.act a).phase = s.phase := congrArg Stage.phase hs
  cases hm with
  | stays => exact hnext ▸ .stays
  | abandons ha hup =>
    rw [hnext]
    refine .abandons ha ?_
    have hbusy : r.phase ≠ .idle := by
      intro hidle
      have hnone : r.overlay = none := h.coherent.eq_idle_iff.mp hidle
      rw [hnone] at hup
      cases hup
    rcases ha with rfl | ⟨link, address, id, rfl⟩
    · rcases (without_noticeClosed h.sound).leaves h.sound with hsame | ⟨-, hleaves⟩
      · exact absurd ((congrArg Stage.phase hsame).symm.trans hnext) hbusy
      · exact hleaves
    · exact leaves_of_deregister hbusy hnext
  | setsUp hrun htables =>
    rw [hnext]
    refine .setsUp ?_
    cases hphase : r.phase with
    | idle | awaitingSetup | ready => simp
    | running | draining | collecting =>
      rw [hphase] at hrun
      cases hrun
  | fails hphase | establishes hphase | finishes hphase =>
    rw [hnext, ← hphase]
    exact .stays
  | completes hphase => exact hnext ▸ .completes hphase
  | starts hcount hphase => exact hnext ▸ .starts hphase
  | drains hphase => exact hnext ▸ .drains hphase
  | asks hphase => exact hnext ▸ .asks hphase
  | asksNobody hphase => exact hnext ▸ .asksNobody hphase
  | summarises hphase => exact hnext ▸ .summarises hphase

/-- **The phase and the progress of a registry are in step.**  In whatever state a registry may be,
it is idle if and only if no overlay is set up, and then all its counts are zero; it holds summaries
only while they are being collected; and each phase fixes what has been counted and what is still
expected.

From there an action changes the phase only one step further round: a setup, its last report, a
start, the last finish, the timer, the last summary.  From any phase it may go back to idle, when a
participant of the overlay leaves or when closings are noticed that take one away, however many of
them and in whatever order. -/
theorem progress_in_step (h : Occurs config draws r) :
    InStep r ∧ (∀ a, Transition r a (r.act a).phase) ∧
    ∀ ws, (noticeEach ws r).phase = r.phase ∨
      (noticeEach ws r).phase = .idle ∧ ParticipantLeaves r (noticeEach ws r) := by
  refine ⟨inStep h.coherent h.tidy, transition h, fun ws => ?_⟩
  rcases (without_noticeEach h.sound ws).leaves h.sound with hsame | ⟨hidle, hleaves⟩
  · exact .inl (congrArg Stage.phase hsame)
  · exact .inr ⟨congrArg Stage.phase hidle, hleaves⟩

/-- Two nodes were asked for their summaries, and one of them is in.  With the other the registry is
ready for the next run. -/
theorem progress_in_step_pair :
    (pairRegistry.run (pairAsked ++ [fiveSummarises])).phase = .collecting ∧
    (pairRegistry.run (pairAsked ++ [fiveSummarises])).collector.size <
      (pairRegistry.run (pairAsked ++ [fiveSummarises])).progress.expected ∧
    Transition (pairRegistry.run (pairAsked ++ [fiveSummarises])) nineSummarises .ready := by
  have h : Occurs {} (.ofList [5, 9]) (pairRegistry.run (pairAsked ++ [fiveSummarises])) :=
    Occurs.initial.run _
  have hphase : (pairRegistry.run (pairAsked ++ [fiveSummarises])).phase = .collecting := by decide
  have hready : ((pairRegistry.run (pairAsked ++ [fiveSummarises])).act nineSummarises).phase =
      .ready := by decide
  obtain ⟨hstep, htransition, -⟩ := progress_in_step h
  obtain ⟨-, -, hmore⟩ := hstep.collecting hphase
  exact ⟨hphase, hmore, hready ▸ htransition nineSummarises⟩

end Registry

end RingOverlay
