import RingOverlay.Proofs.Registry.Consistency
import RingOverlay.Proofs.Registry.Mail

/-!
# Registry — what it does

The *ledger* of a registry is all of it that bears on a run: who is there, the phase, how many nodes
are waited for and what has been collected.  `Deed r a l post` lists what a message, a command or
time can do: the ledger that they lead to, and the messages that they queue on each connection.

* `deed_received`, `deed_setup`, `deed_start`, `deed_elapsed`: **the list is complete.**
* `ledger_connectionLost`: a registration that is lost is taken off the roll, together with the
  overlay if its node took part in it.
-/

namespace RingOverlay

/-- Who is there, the phase, how many nodes are waited for, and what has been collected. -/
structure Ledger where
  roll : Roll
  phase : Phase
  expected : Nat
  collector : Collector

namespace Ledger

/-- The overlay on the roll. -/
def overlay (l : Ledger) : Option Overlay := l.roll.overlay

/-- The ledger with the node `id` at the address `a`, over the connection `k`. -/
def register (l : Ledger) (id : NodeId) (a : PeerAddress) (k : LinkId) : Ledger :=
  { l with roll := { l.roll with
      membership := { l.roll.membership with
        members := Membership.insert ⟨id, a⟩ l.roll.membership.members }
      cache := l.roll.cache.put a k
      watches := l.roll.watches ++ [⟨k, a⟩] } }

/-- The ledger without the node `id` at the address `a`. -/
def without (l : Ledger) (id : NodeId) (a : PeerAddress) : Ledger :=
  { l with roll := { l.roll with
      membership := { l.roll.membership with
        members := Membership.erase id l.roll.membership.members }
      cache := l.roll.cache.erase a } }

/-- The ledger without the overlay, if the node at `a` took part in it. -/
def abandon (l : Ledger) (a : PeerAddress) : Ledger :=
  match l.roll.overlay with
  | some o =>
    if a ∈ o.participants then ⟨{ l.roll with overlay := none }, .idle, 0, .empty⟩ else l
  | none => l

theorem abandon_cases (l : Ledger) (a : PeerAddress) :
    (∃ o, l.roll.overlay = some o ∧ a ∈ o.participants ∧
      l.abandon a = ⟨{ l.roll with overlay := none }, .idle, 0, .empty⟩) ∨
    l.abandon a = l ∧ ∀ o, l.roll.overlay = some o → a ∉ o.participants := by
  unfold abandon
  split
  · next o ho =>
    by_cases ha : a ∈ o.participants
    · exact .inl ⟨o, ho, ha, if_pos ha⟩
    · refine .inr ⟨if_neg ha, fun o' ho' => ?_⟩
      exact Option.some.inj (ho.symm.trans ho') ▸ ha
  · next hnone =>
    exact .inr ⟨rfl, fun o ho => by rw [hnone] at ho; cases ho⟩

theorem cache_abandon (l : Ledger) (a : PeerAddress) :
    (l.abandon a).roll.cache = l.roll.cache := by
  rcases l.abandon_cases a with ⟨o, -, -, h⟩ | ⟨h, -⟩
  · rw [h]
  · rw [h]

theorem membership_abandon (l : Ledger) (a : PeerAddress) :
    (l.abandon a).roll.membership = l.roll.membership := by
  rcases l.abandon_cases a with ⟨o, -, -, h⟩ | ⟨h, -⟩
  · rw [h]
  · rw [h]

theorem links_abandon (l : Ledger) (a : PeerAddress) :
    (l.abandon a).roll.links = l.roll.links := by
  rcases l.abandon_cases a with ⟨o, -, -, h⟩ | ⟨h, -⟩
  · rw [h]
  · rw [h]

end Ledger

namespace Registry

/-- The ledger of a registry. -/
def ledger (r : Registry) : Ledger := ⟨r.roll, r.phase, r.progress.expected, r.collector⟩

/-- What a message, a command or time can do to a registry, and what it queues on connections. -/
inductive Deed (r : Registry) : Action → Ledger → (LinkId → List Message) → Prop where
  | stays {a : Action} : Deed r a r.ledger fun _ => []
  /-- A request is refused. -/
  | refuses {k : LinkId} {request m : Message}
      (hm : ∃ info, m = .registrationStatus failureStatus info ∨
        m = .deregistrationStatus failureStatus info) :
      Deed r (.received k request) r.ledger (r.answering k m)
  | admits {k : LinkId} {peer : Peer} {a : PeerAddress} (id : NodeId) (info : String)
      (hpeer : r.links.end? k = some peer) (hnew : r.membership.hasAddress a = false) :
      Deed r (.received k (.nodeRegisters a)) (r.ledger.register id a k)
        (r.answering k (.registrationStatus id.status info))
  | releases {k : LinkId} {a : PeerAddress} {id : NodeId} (info : String)
      (he : ⟨id, a⟩ ∈ r.membership.members) :
      Deed r (.received k (.nodeDeregisters a id)) ((r.ledger.without id a).abandon a)
        (r.answering k (.deregistrationStatus id.status info))
  | setsUp {size : Option Nat} {tables : List (NodeId × FingerTable)} (hrun : r.phase.isRun = false)
      (htables : Layout.tables r.membership.members (size.getD r.config.defaultTableSize) =
        .ok tables) :
      Deed r (.setup size)
        ⟨{ r.roll with overlay := some ⟨tables, r.membership.members.map Entry.address⟩ },
          .awaitingSetup, r.membership.members.length, r.collector⟩
        fun j => ((r.membership.members.zip tables).filter fun x =>
          r.reachedOver j x.1.address).map fun x => .nodeManifest x.2.2 r.membership.ids
  /-- The last setup report is in, or the last node has finished. -/
  | advances {a : Action} {p : Phase}
      (hp : r.phase = .awaitingSetup ∧ p = .ready ∨ r.phase = .running ∧ p = .draining) :
      Deed r a { r.ledger with phase := p } fun _ => []
  | starts {count : UInt32} (hcount : ¬ maxCount < count) (hphase : r.phase = .ready)
      (htold : (r.told (.taskInitiate count)).length ≠ 0) :
      Deed r (.start count) ⟨r.roll, .running, (r.told (.taskInitiate count)).length, .empty⟩
        fun j => (r.participants.filter (r.reachedOver j)).map fun _ => .taskInitiate count
  | asks {ms : Nat} (hphase : r.phase = .draining)
      (htold : (r.told .trafficSummaryRequest).length ≠ 0) :
      Deed r (.elapsed ms) ⟨r.roll, .collecting, (r.told .trafficSummaryRequest).length, .empty⟩
        fun j => (r.participants.filter (r.reachedOver j)).map fun _ => .trafficSummaryRequest
  | asksNobody {ms : Nat} (hphase : r.phase = .draining)
      (htold : (r.told .trafficSummaryRequest).length = 0) :
      Deed r (.elapsed ms) ⟨r.roll, .ready, r.progress.expected, .empty⟩ fun _ => []
  | collects {k : LinkId} {s : Summary} (hphase : r.phase = .collecting)
      (hmore : (r.collector.add s).size < r.progress.expected) :
      Deed r (.received k (.trafficSummaryReport s))
        { r.ledger with collector := r.collector.add s } fun _ => []
  | publishes {k : LinkId} {s : Summary} (hphase : r.phase = .collecting)
      (hall : ¬ (r.collector.add s).size < r.progress.expected) :
      Deed r (.received k (.trafficSummaryReport s))
        ⟨r.roll, .ready, r.progress.expected, .empty⟩ fun _ => []

variable {r r' : Registry}

/-- No connection is made, and none closes. -/
theorem Deed.links {a : Action} {l : Ledger} {post : LinkId → List Message} (h : Deed r a l post) :
    l.roll.links = r.links := by
  cases h with
  | releases info he => exact Ledger.links_abandon _ _
  | _ => rfl

/-- A message is queued only on the connection that a request has come in on, or where a member is
reached. -/
theorem Deed.queued_on {a : Action} {l : Ledger} {post : LinkId → List Message}
    (h : Deed r a l post) {k : LinkId} (hpost : post k ≠ []) :
    r.links.isOpen k = true ∧ ((∃ m, a = .received k m) ∨ ∃ b, r.reachedOver k b = true) := by
  have hanswered : ∀ {j : LinkId} {m request : Message},
      r.answering j m k ≠ [] →
      r.links.isOpen k = true ∧ ((∃ m, Action.received j request = .received k m) ∨
        ∃ b, r.reachedOver k b = true) := by
    intro j m request hne
    obtain ⟨x, hx⟩ := List.exists_mem_of_ne_nil _ hne
    obtain ⟨hjk, hopen, -⟩ := mem_answering hx
    exact ⟨hopen, .inl ⟨request, by rw [hjk]⟩⟩
  have hreached : ∀ {α : Type} {xs : List α} (f : α → PeerAddress) {g : α → Message},
      (xs.filter fun x => r.reachedOver k (f x)).map g ≠ [] →
      r.links.isOpen k = true ∧ ((∃ m, a = .received k m) ∨ ∃ b, r.reachedOver k b = true) := by
    intro α xs f g hne
    obtain ⟨m, hm⟩ := List.exists_mem_of_ne_nil _ hne
    obtain ⟨x, hx, -⟩ := List.mem_map.mp hm
    have hover := (List.mem_filter.mp hx).2
    exact ⟨(reachedOver_iff.mp hover).2, .inr ⟨f x, hover⟩⟩
  cases h with
  | stays | advances | asksNobody | collects | publishes => exact absurd rfl hpost
  | refuses hm => exact hanswered hpost
  | admits id info hpeer hnew => exact hanswered hpost
  | releases info he => exact hanswered hpost
  | setsUp hrun htables =>
    exact hreached (fun x : Entry × NodeId × FingerTable => x.1.address) hpost
  | starts hcount hphase htold => exact hreached id hpost
  | asks hphase htold => exact hreached id hpost

/-! ### The ledger -/

theorem ledger_congr (h : r'.quiet = r.quiet) : r'.ledger = r.ledger :=
  congr_of_quiet ledger (fun _ => rfl) h

@[simp] theorem ledger_log (r : Registry) (e : RegistryEvent) : (r.log e).ledger = r.ledger := rfl

@[simp] theorem ledger_notice (r : Registry) (line : String) :
    (r.notice line).ledger = r.ledger :=
  ledger_congr (quiet_notice r line)

@[simp] theorem ledger_setPhase (r : Registry) (p : Phase) :
    (r.setPhase p).ledger = { r.ledger with phase := p } := rfl

@[simp] theorem ledger_answerRegistration (r : Registry) (link : LinkId) (status : Int32)
    (info : String) : (r.answerRegistration link status info).ledger = r.ledger :=
  ledger_congr (quiet_answerRegistration r link status info)

@[simp] theorem ledger_answerDeregistration (r : Registry) (link : LinkId) (status : Int32)
    (info : String) : (r.answerDeregistration link status info).ledger = r.ledger :=
  ledger_congr (quiet_answerDeregistration r link status info)

theorem ledger_abandonOverlay (r : Registry) (a : PeerAddress) (reason : String) :
    (r.abandonOverlay a reason).ledger = r.ledger.abandon a := by
  unfold abandonOverlay Ledger.abandon
  change _ = match r.overlay with | some o => _ | none => _
  cases hoverlay : r.overlay with
  | none => rfl
  | some o =>
    dsimp only
    split
    · have hroll := roll_notice (r.log (.overlayAbandoned a r.phase reason))
        s!"The node at {a.text} {reason}; run setup-overlay again"
      rw [ledger_setPhase]
      exact congrArg (fun s : Roll => (⟨{ s with overlay := none }, .idle, 0, .empty⟩ : Ledger))
        hroll
    · rfl

/-- A registration that is lost is taken off the roll. -/
theorem ledger_connectionLost {size : Nat} {ws : List Watch} {w : Watch}
    (h : Sound size ws r.roll) :
    (r.connectionLost w).ledger = r.ledger ∨
    ∃ id, ⟨id, w.address⟩ ∈ r.membership.members ∧ r.cache.get? w.address = some w.link ∧
      (r.connectionLost w).ledger = (r.ledger.without id w.address).abandon w.address := by
  unfold connectionLost
  split
  · next hcurrent =>
    obtain ⟨id, he⟩ := h.exists_member hcurrent
    have hremove : r.membership.removeAddress w.address = _ := h.members.removeAddress_of_mem he
    refine .inr ⟨id, he, hcurrent, ?_⟩
    rw [hremove]
    dsimp only
    rw [ledger_abandonOverlay, ledger_notice, ledger_log]
    rfl
  · exact .inl rfl

/-! ### Requests to join and to leave -/

/-- A deed, told by the ledger after it and by what it queues on each connection. -/
theorem Deed.of_eq {a : Action} {l : Ledger} {post : LinkId → List Message} (h : Deed r a l post)
    (hledger : (r.act a).ledger = l) (hmail : ∀ j, (r.act a).mail j = r.mail j ++ post j) :
    Deed r a (r.act a).ledger (r.posted a) := by
  rw [hledger, show r.posted a = post from funext fun j => posted_eq (hmail j)]
  exact h

/-- What is silent, and leaves the ledger alone. -/
theorem deed_stays {a : Action} (hledger : (r.act a).ledger = r.ledger)
    (houtbox : (r.act a).outbox = r.outbox) : Deed r a (r.act a).ledger (r.posted a) :=
  Deed.stays.of_eq hledger fun j => by rw [mail_congr houtbox, List.append_nil]

theorem deed_register {k : LinkId} {peer : Peer} (hpeer : r.links.end? k = some peer)
    (a : PeerAddress) (hact : r.act (.received k (.nodeRegisters a)) = r.register k peer a) :
    Deed r (.received k (.nodeRegisters a)) (r.act (.received k (.nodeRegisters a))).ledger
      (r.posted (.received k (.nodeRegisters a))) := by
  cases h : r.membership.register a peer.ip r.draws with
  | ok x =>
    obtain ⟨id, membership, draws⟩ := x
    have hreplies := replies_register_of_ok k h
    obtain ⟨hadmits, -, -, rfl⟩ := Membership.register_eq_ok h
    refine (Deed.admits id _ hpeer hadmits.new).of_eq ?_ fun j =>
      (congrArg (mail · j) hact).trans (hreplies.mail j)
    rw [hact]
    simp only [register, h]
    rw [ledger_answerRegistration, ledger_notice]
    rfl
  | error refusal =>
    have hreplies := replies_register_of_error k h
    refine (Deed.refuses ⟨_, .inl rfl⟩).of_eq ?_ fun j =>
      (congrArg (mail · j) hact).trans (hreplies.mail j)
    rw [hact]
    simp only [register, h]
    rw [ledger_answerRegistration, ledger_notice]
    rfl

theorem deed_deregister {k : LinkId} {peer : Peer} (a : PeerAddress) (id : NodeId)
    (hact : r.act (.received k (.nodeDeregisters a id)) = r.deregister k peer a id) :
    Deed r (.received k (.nodeDeregisters a id))
      (r.act (.received k (.nodeDeregisters a id))).ledger
      (r.posted (.received k (.nodeDeregisters a id))) := by
  cases h : r.membership.deregister a id peer.ip with
  | ok x =>
    obtain ⟨b, membership⟩ := x
    have hreplies := replies_deregister_of_ok k h
    obtain ⟨he, rfl⟩ := Membership.deregister_eq_ok h
    refine (Deed.releases _ he).of_eq ?_ fun j =>
      (congrArg (mail · j) hact).trans (hreplies.mail j)
    rw [hact]
    simp only [deregister, h]
    rw [ledger_answerDeregistration, ledger_notice, ledger_log, ledger_abandonOverlay]
    rfl
  | error refusal =>
    have hreplies := replies_deregister_of_error k h
    refine (Deed.refuses ⟨_, .inr rfl⟩).of_eq ?_ fun j =>
      (congrArg (mail · j) hact).trans (hreplies.mail j)
    rw [hact]
    simp only [deregister, h]
    rw [ledger_answerDeregistration, ledger_notice]
    rfl

/-! ### Reports of the nodes -/

theorem ledger_setupReported (r : Registry) (peer : Peer) (status : Int32) (info : String) :
    (r.setupReported peer status info).ledger = r.ledger ∨ r.phase = .awaitingSetup ∧
      (r.setupReported peer status info).ledger = { r.ledger with phase := .ready } := by
  unfold setupReported
  split
  · exact .inl rfl
  · next hphase =>
    split
    · exact .inl (ledger_notice _ _)
    · dsimp only
      split
      · refine .inr ⟨Decidable.not_not.mp hphase, ?_⟩
        rw [ledger_notice, ledger_setPhase]
        rfl
      · exact .inl rfl

theorem ledger_taskFinished (r : Registry) (a : PeerAddress) (id : NodeId) :
    (r.taskFinished a id).ledger = r.ledger ∨ r.phase = .running ∧
      (r.taskFinished a id).ledger = { r.ledger with phase := .draining } := by
  unfold taskFinished
  split
  · exact .inl rfl
  · next hphase =>
    dsimp only
    split
    · exact .inl rfl
    · exact .inr ⟨Decidable.not_not.mp hphase, rfl⟩

theorem deed_summaryReported {k : LinkId} {s : Summary}
    (hact : r.act (.received k (.trafficSummaryReport s)) = r.summaryReported s) :
    Deed r (.received k (.trafficSummaryReport s))
      (r.act (.received k (.trafficSummaryReport s))).ledger
      (r.posted (.received k (.trafficSummaryReport s))) := by
  have hmail : ∀ j, (r.act (.received k (.trafficSummaryReport s))).mail j = r.mail j ++ [] := by
    intro j
    rw [hact, List.append_nil]
    rcases outbox_summaryReported r s with h | ⟨-, -, h⟩
    · exact mail_congr h j
    · rw [mail, h, List.reverse_cons, List.filterMap_append]
      exact List.append_nil _
  by_cases hphase : r.phase = .collecting
  · by_cases hmore : (r.collector.add s).size < r.progress.expected
    · refine (Deed.collects hphase hmore).of_eq ?_ hmail
      rw [hact, summaryReported, if_neg (not_not_intro hphase)]
      dsimp only
      rw [if_pos hmore]
      rfl
    · refine (Deed.publishes hphase hmore).of_eq ?_ hmail
      rw [hact, summaryReported, if_neg (not_not_intro hphase)]
      dsimp only
      rw [if_neg hmore]
      exact ledger_notice _ _
  · refine Deed.stays.of_eq ?_ hmail
    rw [hact, summaryReported, if_pos hphase]
    rfl

/-- **What a message can do.** -/
theorem deed_received (r : Registry) (k : LinkId) (m : Message) :
    Deed r (.received k m) (r.act (.received k m)).ledger (r.posted (.received k m)) := by
  cases hpeer : r.links.end? k with
  | none =>
    have hact : r.act (.received k m) = r := by rw [act, receive, hpeer]
    exact deed_stays (congrArg ledger hact) (congrArg outbox hact)
  | some peer =>
    have hact : r.act (.received k m) = r.handle k peer m := by rw [act, receive, hpeer]
    cases m with
    | nodeRegisters a => exact deed_register hpeer a hact
    | nodeDeregisters a id => exact deed_deregister a id hact
    | trafficSummaryReport s => exact deed_summaryReported hact
    | overlaySetupStatus status info =>
      have houtbox := (congrArg outbox hact).trans (outbox_setupReported r peer status info)
      rcases ledger_setupReported r peer status info with h | ⟨hphase, h⟩
      · exact deed_stays ((congrArg ledger hact).trans h) houtbox
      · refine (Deed.advances (.inl ⟨hphase, rfl⟩)).of_eq ((congrArg ledger hact).trans h) ?_
        exact fun j => by rw [mail_congr houtbox, List.append_nil]
    | taskFinished a id =>
      have houtbox := (congrArg outbox hact).trans (outbox_taskFinished r a id)
      rcases ledger_taskFinished r a id with h | ⟨hphase, h⟩
      · exact deed_stays ((congrArg ledger hact).trans h) houtbox
      · refine (Deed.advances (.inr ⟨hphase, rfl⟩)).of_eq ((congrArg ledger hact).trans h) ?_
        exact fun j => by rw [mail_congr houtbox, List.append_nil]
    | _ => exact deed_stays (by rw [hact]; rfl) (by rw [hact]; rfl)

/-! ### Commands and time -/

/-- **What a setup can do.** -/
theorem deed_setup (r : Registry) (size : Option Nat) :
    Deed r (.setup size) (r.act (.setup size)).ledger (r.posted (.setup size)) := by
  by_cases hrefused : r.phase.isRun = true ∨
      ∃ e, Layout.tables r.membership.members (size.getD r.config.defaultTableSize) = .error e
  · have hsame : (r.act (.setup size)).ledger = r.ledger := by
      change (r.setup size).1.ledger = _
      unfold setup
      split
      · rfl
      · next hrun =>
        obtain ⟨e, he⟩ := hrefused.resolve_left hrun
        simp only [he]
    exact deed_stays hsame (outbox_setup_refused hrefused)
  · obtain ⟨hrun, hnone⟩ := not_or.mp hrefused
    cases htables : Layout.tables r.membership.members (size.getD r.config.defaultTableSize) with
    | error e => exact absurd ⟨e, htables⟩ hnone
    | ok tables =>
      refine (Deed.setsUp (Bool.not_eq_true _ ▸ hrun) htables).of_eq ?_
        (mail_setup (Bool.not_eq_true _ ▸ hrun) htables)
      change (r.setup size).1.ledger = _
      have hsent := ledger_congr
        (quiet_sendManifests r r.membership.ids (r.membership.members.zip tables))
      simp only [setup, htables, if_neg hrun]
      rw [ledger_setPhase]
      exact congrArg (fun l : Ledger => (⟨{ l.roll with
        overlay := some ⟨tables, r.membership.members.map Entry.address⟩ }, .awaitingSetup,
        r.membership.members.length, l.collector⟩ : Ledger)) hsent

/-- A node can be sent to if it is reached over some connection. -/
theorem send_snd_iff {a : PeerAddress} {m : Message} :
    (r.send a m).2 = true ↔ ∃ k, r.reachedOver k a = true := by
  simp only [reachedOver_iff]
  unfold send
  cases hlink : r.cache.get? a with
  | none => simp
  | some link =>
    by_cases hopen : r.links.isOpen link = true
    · simp [hopen]
    · simp [hopen]

/-- If nobody is told, nothing is queued. -/
theorem filter_reachedOver_of_told {m : Message} (h : (r.told m).length = 0) (k : LinkId) :
    r.participants.filter (r.reachedOver k) = [] := by
  refine List.filter_eq_nil_iff.mpr fun a ha hreached => ?_
  have hmem : a ∈ r.told m := by
    unfold participants at ha
    unfold told
    cases hoverlay : r.overlay with
    | none =>
      rw [hoverlay] at ha
      exact absurd ha List.not_mem_nil
    | some o =>
      rw [hoverlay] at ha
      exact List.mem_filter.mpr ⟨ha, send_snd_iff.mpr ⟨k, hreached⟩⟩
  rw [List.length_eq_zero_iff.mp h] at hmem
  exact absurd hmem List.not_mem_nil

/-- **What a start can do.** -/
theorem deed_start (r : Registry) (count : UInt32) :
    Deed r (.start count) (r.act (.start count)).ledger (r.posted (.start count)) := by
  by_cases hrefused : maxCount < count ∨ r.phase ≠ .ready
  · have hsame : (r.act (.start count)).ledger = r.ledger := by
      change (r.start count).1.ledger = _
      unfold start
      split
      · rfl
      · next hcount =>
        split
        · rfl
        · rfl
        · next hready => exact absurd hready (hrefused.resolve_left hcount)
        · rfl
    exact deed_stays hsame (outbox_start_refused hrefused)
  · obtain ⟨hcount, hphase⟩ := not_or.mp hrefused
    replace hphase := Decidable.not_not.mp hphase
    have hsent := ledger_congr (quiet_broadcast r (.taskInitiate count))
    have hact : (r.act (.start count)).ledger = (r.start count).1.ledger := rfl
    by_cases htold : (r.told (.taskInitiate count)).length = 0
    · refine Deed.stays.of_eq ?_ fun j => ?_
      · rw [hact]
        simp only [start, if_neg hcount, hphase, broadcast_snd, htold, if_true]
        exact hsent
      · change (r.start count).1.mail j = _
        rw [mail_start hcount hphase, filter_reachedOver_of_told htold]
        rfl
    · refine (Deed.starts hcount hphase htold).of_eq ?_ (mail_start hcount hphase)
      rw [hact]
      simp only [start, if_neg hcount, hphase, broadcast_snd, if_neg htold]
      exact congrArg (fun l : Ledger =>
        (⟨l.roll, .running, (r.told (.taskInitiate count)).length, .empty⟩ : Ledger)) hsent

theorem ledger_requestSummaries (h : r.phase = .draining) : r.requestSummaries.ledger =
    if (r.told .trafficSummaryRequest).length = 0 then
      ⟨r.roll, .ready, r.progress.expected, .empty⟩
    else ⟨r.roll, .collecting, (r.told .trafficSummaryRequest).length, .empty⟩ := by
  have hsent := ledger_congr (quiet_broadcast r.cleared .trafficSummaryRequest)
  have htold : r.cleared.told .trafficSummaryRequest = r.told .trafficSummaryRequest := by
    apply told_congr <;> rfl
  rw [requestSummaries_eq h]
  dsimp only
  rw [broadcast_snd, htold]
  split
  · exact congrArg (fun l : Ledger => { l with phase := .ready }) hsent
  · exact congrArg (fun l : Ledger => { l with
      phase := .collecting
      expected := (r.told .trafficSummaryRequest).length }) hsent

/-- **What time can do.** -/
theorem deed_elapsed (r : Registry) (ms : Nat) :
    Deed r (.elapsed ms) (r.act (.elapsed ms)).ledger (r.posted (.elapsed ms)) := by
  have hact : r.act (.elapsed ms) = r.elapse ms := rfl
  rcases elapse_cases r ms with haged | ⟨hphase, -, hasked⟩
  · exact deed_stays (by rw [hact, haged]; rfl) (by rw [hact, haged]; rfl)
  · have htold : (r.aged ms).told .trafficSummaryRequest = r.told .trafficSummaryRequest := by
      apply told_congr <;> rfl
    have hledger := ledger_requestSummaries (r := r.aged ms) hphase
    have hmail := mail_requestSummaries (r := r.aged ms) hphase
    rw [htold] at hledger
    by_cases hnobody : (r.told .trafficSummaryRequest).length = 0
    · refine (Deed.asksNobody hphase hnobody).of_eq ?_ fun j => ?_
      · rw [hact, hasked, hledger, if_pos hnobody]
        rfl
      · rw [hact, hasked, hmail]
        change r.mail j ++ (r.participants.filter (r.reachedOver j)).map _ = _
        rw [filter_reachedOver_of_told hnobody]
        rfl
    · refine (Deed.asks hphase hnobody).of_eq ?_ fun j => ?_
      · rw [hact, hasked, hledger, if_neg hnobody]
        rfl
      · rw [hact, hasked]
        exact hmail j

end Registry

end RingOverlay
