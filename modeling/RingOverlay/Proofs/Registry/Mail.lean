import RingOverlay.Fleet.State
import RingOverlay.Proofs.Registry.Timers

/-!
# Registry — what is sent and what is published

`mail r k` are the messages that a registry has queued on the connection `k`, and `reports r` the
reports it has published; `posted r a k` are the messages that the action `a` adds.  Most handlers
are *silent*: they leave the outbox as it is.  A broadcast adds one message for each participant
that is reached over `k`, a setup one manifest for each such member, and an answer goes to whoever
asked.

* `reports_act`: a report is published when the last summary of a collection comes in.
* `mail_act`: **nothing is unsent.**
* `request_of_posted`: **summaries are asked for when a timer runs out while the registry drains.**
-/

namespace RingOverlay

/-- The message that an effect queues on the connection `k`. -/
def RegistryEffect.on? (k : LinkId) : RegistryEffect → Option Message
  | .sent link m => if link = k then some m else none
  | _ => none

/-- Whether an effect is seen outside of the registry's own log and console. -/
def RegistryEffect.isOutward : RegistryEffect → Bool
  | .sent _ _ | .published _ => true
  | .logged _ | .printed _ => false

namespace Registry

/-- What a registry has sent and published, newest first. -/
def outbox (r : Registry) : List RegistryEffect := r.effects.filter RegistryEffect.isOutward

/-- The messages that have been queued on a connection, oldest first. -/
def mail (r : Registry) (k : LinkId) : List Message :=
  r.outbox.reverse.filterMap (RegistryEffect.on? k)

/-- The reports that have been published, newest first. -/
def reports (r : Registry) : List Report := r.outbox.filterMap Fleet.reportOf?

/-- Whether the node at `a` is reached over the connection `k`. -/
def reachedOver (r : Registry) (k : LinkId) (a : PeerAddress) : Bool :=
  r.cache.get? a == some k && r.links.isOpen k

/-- What answering with `m` on `link` queues on the connection `k`. -/
def answering (r : Registry) (link : LinkId) (m : Message) (k : LinkId) : List Message :=
  if link = k ∧ r.links.isOpen k = true then [m] else []

variable {r r' : Registry} {k : LinkId}

theorem answering_of_ne {link : LinkId} (h : link ≠ k) (m : Message) : r.answering link m k = [] :=
  if_neg fun hk => h hk.1

theorem answering_self (h : r.links.isOpen k = true) (m : Message) : r.answering k m k = [m] :=
  if_pos ⟨rfl, h⟩

theorem answering_cases (link : LinkId) (m : Message) :
    r.answering link m k = [] ∨ r.answering link m k = [m] := by
  unfold answering
  split
  · exact .inr rfl
  · exact .inl rfl

theorem mem_answering {link : LinkId} {m x : Message} (h : x ∈ r.answering link m k) :
    link = k ∧ r.links.isOpen k = true ∧ x = m := by
  unfold answering at h
  split at h
  · next hk => exact ⟨hk.1, hk.2, List.mem_singleton.mp h⟩
  · cases h

theorem reachedOver_iff {a : PeerAddress} :
    r.reachedOver k a = true ↔ r.cache.get? a = some k ∧ r.links.isOpen k = true := by
  unfold reachedOver
  rw [Bool.and_eq_true, beq_iff_eq]

theorem mail_congr (h : r'.outbox = r.outbox) (k : LinkId) : r'.mail k = r.mail k := by
  rw [mail, mail, h]

theorem reports_congr (h : r'.outbox = r.outbox) : r'.reports = r.reports := by
  rw [reports, reports, h]

theorem mail_sent (r : Registry) (link : LinkId) (m : Message) (k : LinkId) :
    (r.emit (.sent link m)).mail k = r.mail k ++ if link = k then [m] else [] := by
  change (RegistryEffect.sent link m :: r.outbox).reverse.filterMap _ = _
  rw [List.reverse_cons, List.filterMap_append, ← mail]
  by_cases hk : link = k
  · simp [RegistryEffect.on?, hk]
  · simp [RegistryEffect.on?, hk]

/-! ### What is silent -/

@[simp] theorem outbox_log (r : Registry) (e : RegistryEvent) : (r.log e).outbox = r.outbox := rfl

@[simp] theorem outbox_notice (r : Registry) (line : String) :
    (r.notice line).outbox = r.outbox := by
  unfold notice
  split <;> rfl

@[simp] theorem outbox_abandonOverlay (r : Registry) (a : PeerAddress) (reason : String) :
    (r.abandonOverlay a reason).outbox = r.outbox := by
  unfold abandonOverlay
  split
  · rfl
  · split
    · exact outbox_notice _ _
    · rfl

@[simp] theorem outbox_connectionLost (r : Registry) (w : Watch) :
    (r.connectionLost w).outbox = r.outbox := by
  unfold connectionLost
  split
  · exact (outbox_abandonOverlay _ _ _).trans (outbox_notice _ _)
  · rfl

theorem outbox_loseAll (ws : List Watch) (r : Registry) : (loseAll ws r).outbox = r.outbox := by
  induction ws generalizing r with
  | nil => rfl
  | cons w ws ih => exact (ih _).trans (outbox_connectionLost r w)

theorem outbox_noticeClosed (r : Registry) : r.noticeClosed.outbox = r.outbox := outbox_loseAll _ _

theorem outbox_setupReported (r : Registry) (peer : Peer) (status : Int32) (info : String) :
    (r.setupReported peer status info).outbox = r.outbox := by
  unfold setupReported
  split
  · rfl
  · split
    · exact outbox_notice _ _
    · dsimp only
      split
      · exact outbox_notice _ _
      · rfl

theorem outbox_taskFinished (r : Registry) (a : PeerAddress) (id : NodeId) :
    (r.taskFinished a id).outbox = r.outbox := by
  unfold taskFinished
  split
  · rfl
  · dsimp only
    split <;> rfl

/-! ### Answers -/

/-- From `r` to `r'`, nothing goes out but the answer `m` on `link`, and that only if anybody still
listens there. -/
def Replies (r : Registry) (link : LinkId) (m : Message) (r' : Registry) : Prop :=
  r'.outbox = (if r.links.isOpen link = true then [.sent link m] else []) ++ r.outbox

/-- What is silent before an answer makes no difference to it. -/
theorem Replies.after {r₁ : Registry} {link : LinkId} {m : Message} (h : r₁.Replies link m r')
    (houtbox : r₁.outbox = r.outbox) (hlinks : r₁.links = r.links) : r.Replies link m r' := by
  rwa [Replies, houtbox, hlinks] at h

theorem Replies.mail {link : LinkId} {m : Message} (h : r.Replies link m r') (k : LinkId) :
    r'.mail k = r.mail k ++ r.answering link m k := by
  rw [Registry.mail, h, List.reverse_append, List.filterMap_append, ← Registry.mail, answering]
  refine congrArg (r.mail k ++ ·) ?_
  by_cases hk : link = k
  · subst hk
    cases r.links.isOpen link with
    | true => simp [RegistryEffect.on?]
    | false => simp
  · cases r.links.isOpen link with
    | true => simp [RegistryEffect.on?, hk]
    | false => simp [hk]

theorem Replies.reports {link : LinkId} {m : Message} (h : r.Replies link m r') :
    r'.reports = r.reports := by
  rw [Registry.reports, h, List.filterMap_append, ← Registry.reports]
  split <;> rfl

/-- An answer goes out, or is logged because nobody listens any more. -/
theorem replies_answer (r : Registry) (link : LinkId) (m : Message) (e : RegistryEvent) :
    r.Replies link m
      (if r.links.isOpen link = true then r.emit (.sent link m) else r.log e) := by
  unfold Replies
  split <;> rfl

theorem replies_answerRegistration (r : Registry) (link : LinkId) (status : Int32)
    (info : String) :
    r.Replies link (.registrationStatus status info) (r.answerRegistration link status info) :=
  r.replies_answer link _ _

theorem replies_answerDeregistration (r : Registry) (link : LinkId) (status : Int32)
    (info : String) :
    r.Replies link (.deregistrationStatus status info) (r.answerDeregistration link status info) :=
  r.replies_answer link _ _

/-! ### Sending -/

theorem mail_send (r : Registry) (a : PeerAddress) (m : Message) (k : LinkId) :
    (r.send a m).1.mail k = r.mail k ++ if r.reachedOver k a then [m] else [] := by
  unfold send reachedOver
  split
  · next hnone => rw [mail_congr (outbox_log _ _), hnone]; simp
  · next link hlink =>
    split
    · next hopen =>
      rw [mail_sent, hlink]
      by_cases hk : link = k
      · subst hk
        simp [hopen]
      · simp [hk]
    · next hclosed =>
      rw [mail_congr (outbox_log _ _), hlink]
      by_cases hk : link = k
      · subst hk
        simp [hclosed]
      · simp [hk]

theorem reports_send (r : Registry) (a : PeerAddress) (m : Message) :
    (r.send a m).1.reports = r.reports := by
  unfold send
  split
  · rfl
  · split <;> rfl

/-- Who is reached, and over what, does not change by sending. -/
theorem reachedOver_send (r : Registry) (a : PeerAddress) (m : Message) (k : LinkId) :
    (r.send a m).1.reachedOver k = r.reachedOver k :=
  congr_of_quiet (reachedOver · k) (fun _ => rfl) (quiet_send r a m)

theorem mail_sendEach (m : Message) (as : List PeerAddress) (r : Registry) (k : LinkId) :
    (sendEach m as r).1.mail k = r.mail k ++ (as.filter (r.reachedOver k)).map fun _ => m := by
  induction as generalizing r with
  | nil => exact (List.append_nil _).symm
  | cons a as ih =>
    change (sendEach m as (r.send a m).1).1.mail k = _
    rw [ih, mail_send, reachedOver_send, List.filter_cons]
    split <;> simp

theorem reports_sendEach (m : Message) (as : List PeerAddress) (r : Registry) :
    (sendEach m as r).1.reports = r.reports := by
  induction as generalizing r with
  | nil => rfl
  | cons a as ih => exact (ih _).trans (reports_send r a m)

theorem mail_broadcast (r : Registry) (m : Message) (k : LinkId) :
    (r.broadcast m).1.mail k =
      r.mail k ++ (r.participants.filter (r.reachedOver k)).map fun _ => m := by
  unfold broadcast participants
  cases r.overlay with
  | some o => exact mail_sendEach m o.participants r k
  | none => exact (List.append_nil _).symm

theorem reports_broadcast (r : Registry) (m : Message) : (r.broadcast m).1.reports = r.reports := by
  unfold broadcast
  cases r.overlay with
  | some o => exact reports_sendEach m o.participants r
  | none => rfl

theorem mail_sendManifests (ids : List NodeId) (manifests : List (Entry × (NodeId × FingerTable)))
    (r : Registry) (k : LinkId) :
    (sendManifests ids manifests r).mail k = r.mail k ++
      (manifests.filter fun x => r.reachedOver k x.1.address).map
        fun x => .nodeManifest x.2.2 ids := by
  induction manifests generalizing r with
  | nil => exact (List.append_nil _).symm
  | cons x manifests ih =>
    change (sendManifests ids manifests (r.send x.1.address _).1).mail k = _
    rw [ih, mail_send, reachedOver_send, List.filter_cons]
    split <;> simp

theorem reports_sendManifests (ids : List NodeId)
    (manifests : List (Entry × (NodeId × FingerTable))) (r : Registry) :
    (sendManifests ids manifests r).reports = r.reports := by
  induction manifests generalizing r with
  | nil => rfl
  | cons x manifests ih => exact (ih _).trans (reports_send r x.1.address _)

/-! ### Requests -/

theorem mail_requestSummaries (h : r.phase = .draining) (k : LinkId) :
    r.requestSummaries.mail k = r.mail k ++
      (r.participants.filter (r.reachedOver k)).map fun _ => .trafficSummaryRequest := by
  have hsent := mail_broadcast r.cleared .trafficSummaryRequest k
  rw [requestSummaries_eq h]
  dsimp only
  split
  · exact hsent
  · exact hsent

theorem reports_requestSummaries (r : Registry) : r.requestSummaries.reports = r.reports := by
  have hsent := reports_broadcast { r with collector := .empty } .trafficSummaryRequest
  unfold requestSummaries
  split
  · rfl
  · dsimp only
    split
    · exact hsent
    · exact hsent

theorem reports_elapse (r : Registry) (ms : Nat) : (r.elapse ms).reports = r.reports := by
  rcases elapse_cases r ms with h | ⟨-, -, h⟩
  · rw [h]
    rfl
  · rw [h]
    exact reports_requestSummaries _

/-! ### Commands -/

theorem mail_setup {size : Option Nat} {tables : List (NodeId × FingerTable)}
    (hrun : r.phase.isRun = false)
    (htables : Layout.tables r.membership.members (size.getD r.config.defaultTableSize) =
      .ok tables) (k : LinkId) :
    (r.setup size).1.mail k = r.mail k ++
      ((r.membership.members.zip tables).filter fun x => r.reachedOver k x.1.address).map
        fun x => .nodeManifest x.2.2 r.membership.ids := by
  simp only [setup, hrun, htables]
  exact mail_sendManifests _ _ r k

theorem outbox_setup_refused {size : Option Nat} (h : r.phase.isRun = true ∨
    ∃ e, Layout.tables r.membership.members (size.getD r.config.defaultTableSize) = .error e) :
    (r.setup size).1.outbox = r.outbox := by
  unfold setup
  split
  · rfl
  · next hrun =>
    obtain ⟨e, he⟩ := h.resolve_left hrun
    simp only [he]

theorem reports_setup (r : Registry) (size : Option Nat) :
    (r.setup size).1.reports = r.reports := by
  unfold setup
  split
  · rfl
  · dsimp only
    split
    · rfl
    · exact reports_sendManifests _ _ r

theorem mail_start {count : UInt32} (hcount : ¬ maxCount < count) (hphase : r.phase = .ready)
    (k : LinkId) :
    (r.start count).1.mail k = r.mail k ++
      (r.participants.filter (r.reachedOver k)).map fun _ => .taskInitiate count := by
  have hsent := mail_broadcast r (.taskInitiate count) k
  simp only [start, if_neg hcount, hphase]
  split
  · exact hsent
  · exact hsent

theorem outbox_start_refused {count : UInt32} (h : maxCount < count ∨ r.phase ≠ .ready) :
    (r.start count).1.outbox = r.outbox := by
  unfold start
  split
  · rfl
  · next hcount =>
    split
    · rfl
    · rfl
    · next hready => exact absurd hready (h.resolve_left hcount)
    · rfl

theorem reports_start (r : Registry) (count : UInt32) :
    (r.start count).1.reports = r.reports := by
  unfold start
  split
  · rfl
  · split
    · rfl
    · rfl
    · dsimp only
      split
      · exact reports_broadcast r _
      · exact reports_broadcast r _
    · rfl

/-! ### Members and reports -/

theorem links_notice (r : Registry) (line : String) : (r.notice line).links = r.links :=
  congr_of_quiet links (fun _ => rfl) (quiet_notice r line)

theorem links_abandonOverlay (r : Registry) (a : PeerAddress) (reason : String) :
    (r.abandonOverlay a reason).links = r.links := by
  unfold abandonOverlay
  split
  · rfl
  · split
    · exact links_notice _ _
    · rfl

/-- Whoever is admitted is told its identifier, and how many nodes there are now. -/
theorem replies_register_of_ok (link : LinkId) {peer : Peer} {a : PeerAddress} {id : NodeId}
    {membership : Membership} {draws : Draws}
    (h : r.membership.register a peer.ip r.draws = .ok (id, membership, draws)) :
    r.Replies link (.registrationStatus id.status (acceptance "Registration" membership.size))
      (r.register link peer a) := by
  simp only [register, h]
  exact (replies_answerRegistration _ link _ _).after (outbox_notice _ _) (links_notice _ _)

/-- Whoever is refused is told so. -/
theorem replies_register_of_error (link : LinkId) {peer : Peer} {a : PeerAddress}
    {refusal : Refusal} (h : r.membership.register a peer.ip r.draws = .error refusal) :
    r.Replies link (.registrationStatus failureStatus
      s!"Registration request failed: {refusal.message}") (r.register link peer a) := by
  simp only [register, h]
  exact (replies_answerRegistration _ link _ _).after (outbox_notice _ _) (links_notice _ _)

/-- Whoever may leave is told so, and how many nodes there are now. -/
theorem replies_deregister_of_ok (link : LinkId) {peer : Peer} {a b : PeerAddress} {id : NodeId}
    {membership : Membership} (h : r.membership.deregister a id peer.ip = .ok (b, membership)) :
    r.Replies link (.deregistrationStatus id.status (acceptance "Deregistration" membership.size))
      (r.deregister link peer a id) := by
  simp only [deregister, h]
  refine ((replies_answerDeregistration _ link _ _).after (outbox_notice _ _)
    (links_notice _ _)).after ?_ ?_
  · exact outbox_abandonOverlay _ _ _
  · exact links_abandonOverlay _ _ _

theorem replies_deregister_of_error (link : LinkId) {peer : Peer} {a : PeerAddress} {id : NodeId}
    {refusal : Refusal} (h : r.membership.deregister a id peer.ip = .error refusal) :
    r.Replies link (.deregistrationStatus failureStatus
      s!"Deregistration request failed: {refusal.message}") (r.deregister link peer a id) := by
  simp only [deregister, h]
  exact (replies_answerDeregistration _ link _ _).after (outbox_notice _ _) (links_notice _ _)

/-- A request to join is answered, and not otherwise heard of. -/
theorem reports_register (r : Registry) (link : LinkId) (peer : Peer) (a : PeerAddress) :
    (r.register link peer a).reports = r.reports := by
  cases h : r.membership.register a peer.ip r.draws with
  | ok x => exact (replies_register_of_ok link h).reports
  | error refusal => exact (replies_register_of_error link h).reports

theorem reports_deregister (r : Registry) (link : LinkId) (peer : Peer) (a : PeerAddress)
    (id : NodeId) : (r.deregister link peer a id).reports = r.reports := by
  cases h : r.membership.deregister a id peer.ip with
  | ok x => exact (replies_deregister_of_ok link h).reports
  | error refusal => exact (replies_deregister_of_error link h).reports

theorem outbox_summaryReported (r : Registry) (s : Summary) :
    (r.summaryReported s).outbox = r.outbox ∨
    r.phase = .collecting ∧ ¬ (r.collector.add s).size < r.progress.expected ∧
      (r.summaryReported s).outbox = .published (r.collector.add s).take.1 :: r.outbox := by
  unfold summaryReported
  split
  · exact .inl rfl
  · next hphase =>
    dsimp only
    split
    · exact .inl rfl
    · next hall =>
      refine .inr ⟨Decidable.not_not.mp hphase, hall, ?_⟩
      change RegistryEffect.published _ :: Registry.outbox (notice _ _) = _
      rw [outbox_notice]
      rfl

/-! ### Every action -/

theorem reports_receive (r : Registry) (link : LinkId) (m : Message) :
    (r.receive link m).reports = r.reports ∨
    ∃ s, m = .trafficSummaryReport s ∧ (r.links.end? link).isSome ∧ r.phase = .collecting ∧
      ¬ (r.collector.add s).size < r.progress.expected ∧
      (r.receive link m).reports = (r.collector.add s).take.1 :: r.reports := by
  unfold receive
  split
  · next peer hpeer =>
    cases m with
    | nodeRegisters a => exact .inl (reports_register r link peer a)
    | nodeDeregisters a id => exact .inl (reports_deregister r link peer a id)
    | overlaySetupStatus status info =>
      exact .inl (reports_congr (outbox_setupReported r peer status info))
    | taskFinished a id => exact .inl (reports_congr (outbox_taskFinished r a id))
    | trafficSummaryReport s =>
      rcases outbox_summaryReported r s with h | ⟨hphase, hall, h⟩
      · exact .inl (reports_congr h)
      · refine .inr ⟨s, rfl, Option.isSome_of_eq_some hpeer, hphase, hall, ?_⟩
        rw [handle, reports, h]
        rfl
    | _ => exact .inl rfl
  · exact .inl rfl

/-- A report is published when the last summary of a collection comes in. -/
theorem reports_act (r : Registry) (a : Action) :
    (r.act a).reports = r.reports ∨
    ∃ link s, a = .received link (.trafficSummaryReport s) ∧ (r.links.end? link).isSome ∧
      r.phase = .collecting ∧ ¬ (r.collector.add s).size < r.progress.expected ∧
      (r.act a).reports = (r.collector.add s).take.1 :: r.reports := by
  cases a with
  | connected peer => exact .inl rfl
  | closed link => exact .inl rfl
  | noticed => exact .inl (reports_congr (outbox_noticeClosed r))
  | setup size => exact .inl (reports_setup r size)
  | start count => exact .inl (reports_start r count)
  | elapsed ms => exact .inl (reports_elapse r ms)
  | received link m =>
    rcases reports_receive r link m with h | ⟨s, rfl, h⟩
    · exact .inl h
    · exact .inr ⟨link, s, rfl, h⟩

/-- The messages that an action queues on a connection. -/
def posted (r : Registry) (a : Action) (k : LinkId) : List Message :=
  ((r.act a).mail k).drop (r.mail k).length

theorem posted_eq {a : Action} {ms : List Message} (h : (r.act a).mail k = r.mail k ++ ms) :
    r.posted a k = ms := by
  rw [posted, h, List.drop_left]

theorem posted_silent {a : Action} (h : (r.act a).outbox = r.outbox) : r.posted a k = [] :=
  posted_eq (by rw [mail_congr h, List.append_nil])

theorem posted_elapsed_of_due {t ms : Nat} (hphase : r.phase = .draining) (ht : t ∈ r.timers)
    (hdue : t ≤ r.clock + ms) : r.posted (.elapsed ms) k =
      (r.participants.filter (r.reachedOver k)).map fun _ => .trafficSummaryRequest := by
  refine posted_eq ?_
  change (r.elapse ms).mail k = _
  rw [elapse_of_due hphase ht hdue]
  exact mail_requestSummaries (r := r.aged ms) hphase k

theorem posted_elapsed_of_aged {ms : Nat} (h : r.elapse ms = r.aged ms) :
    r.posted (.elapsed ms) k = [] := by
  refine posted_silent ?_
  change (r.elapse ms).outbox = _
  rw [h]
  rfl

/-- A node that asks to join or to leave is answered, and nobody else hears of it. -/
theorem mail_received (r : Registry) (link : LinkId) (m : Message) (k : LinkId) :
    ∃ ms, (r.receive link m).mail k = r.mail k ++ ms ∧ (ms = [] ∨ ∃ status info,
      ms = [.registrationStatus status info] ∨ ms = [.deregistrationStatus status info]) := by
  cases hpeer : r.links.end? link with
  | none =>
    have hnone : r.receive link m = r := by rw [receive, hpeer]
    exact ⟨[], by rw [hnone, List.append_nil], .inl rfl⟩
  | some peer =>
    have hhandle : r.receive link m = r.handle link peer m := by rw [receive, hpeer]
    rw [hhandle]
    have hsilent (h : (r.handle link peer m).outbox = r.outbox) :
        (r.handle link peer m).mail k = r.mail k ++ [] := by
      rw [mail_congr h, List.append_nil]
    cases m with
    | nodeRegisters a =>
      cases h : r.membership.register a peer.ip r.draws with
      | ok x =>
        exact ⟨_, (replies_register_of_ok link h).mail k,
          (answering_cases link _).imp_right fun h => ⟨_, _, .inl h⟩⟩
      | error refusal =>
        exact ⟨_, (replies_register_of_error link h).mail k,
          (answering_cases link _).imp_right fun h => ⟨_, _, .inl h⟩⟩
    | nodeDeregisters a id =>
      cases h : r.membership.deregister a id peer.ip with
      | ok x =>
        exact ⟨_, (replies_deregister_of_ok link h).mail k,
          (answering_cases link _).imp_right fun h => ⟨_, _, .inr h⟩⟩
      | error refusal =>
        exact ⟨_, (replies_deregister_of_error link h).mail k,
          (answering_cases link _).imp_right fun h => ⟨_, _, .inr h⟩⟩
    | overlaySetupStatus status info =>
      exact ⟨[], hsilent (outbox_setupReported r peer _ _), .inl rfl⟩
    | taskFinished a id => exact ⟨[], hsilent (outbox_taskFinished r a id), .inl rfl⟩
    | trafficSummaryReport s =>
      refine ⟨[], ?_, .inl rfl⟩
      rw [handle, List.append_nil]
      rcases outbox_summaryReported r s with h | ⟨-, -, h⟩
      · exact mail_congr h k
      · rw [mail, h, List.reverse_cons, List.filterMap_append]
        exact List.append_nil _
    | _ => exact ⟨[], hsilent rfl, .inl rfl⟩

theorem posted_received (r : Registry) (link : LinkId) (m : Message) (k : LinkId) :
    r.posted (.received link m) k = [] ∨ ∃ status info,
      r.posted (.received link m) k = [.registrationStatus status info] ∨
      r.posted (.received link m) k = [.deregistrationStatus status info] := by
  obtain ⟨ms, hmail, hms⟩ := mail_received r link m k
  rw [posted_eq (a := .received link m) hmail]
  exact hms

theorem posted_noticed (r : Registry) (k : LinkId) : r.posted .noticed k = [] :=
  posted_silent (a := .noticed) (outbox_noticeClosed r)

theorem posted_setup {size : Option Nat} {tables : List (NodeId × FingerTable)}
    (hrun : r.phase.isRun = false)
    (htables : Layout.tables r.membership.members (size.getD r.config.defaultTableSize) =
      .ok tables) :
    r.posted (.setup size) k =
      ((r.membership.members.zip tables).filter fun x => r.reachedOver k x.1.address).map
        fun x => .nodeManifest x.2.2 r.membership.ids :=
  posted_eq (a := .setup size) (mail_setup hrun htables k)

theorem posted_start {count : UInt32} (hcount : ¬ maxCount < count) (hphase : r.phase = .ready) :
    r.posted (.start count) k =
      (r.participants.filter (r.reachedOver k)).map fun _ => .taskInitiate count :=
  posted_eq (a := .start count) (mail_start hcount hphase k)

/-- A setup lays out tables, or is silent. -/
theorem tables_of_setup (r : Registry) (size : Option Nat) :
    (r.setup size).1.outbox = r.outbox ∨ ∃ tables, r.phase.isRun = false ∧
      Layout.tables r.membership.members (size.getD r.config.defaultTableSize) = .ok tables := by
  cases hrun : r.phase.isRun with
  | true => exact .inl (outbox_setup_refused (.inl hrun))
  | false =>
    cases htables : Layout.tables r.membership.members (size.getD r.config.defaultTableSize) with
    | error e => exact .inl (outbox_setup_refused (.inr ⟨e, htables⟩))
    | ok tables => exact .inr ⟨tables, rfl, rfl⟩

/-- A start is admissible, or silent. -/
theorem admissible_of_start (r : Registry) (count : UInt32) :
    (r.start count).1.outbox = r.outbox ∨ ¬ maxCount < count ∧ r.phase = .ready := by
  by_cases hrefused : maxCount < count ∨ r.phase ≠ .ready
  · exact .inl (outbox_start_refused hrefused)
  · obtain ⟨hcount, hphase⟩ := not_or.mp hrefused
    exact .inr ⟨hcount, Decidable.not_not.mp hphase⟩

/-- **Nothing is unsent**: an action adds to what has been queued on a connection. -/
theorem mail_act (r : Registry) (a : Action) (k : LinkId) :
    (r.act a).mail k = r.mail k ++ r.posted a k := by
  have hadds {ms : List Message} (h : (r.act a).mail k = r.mail k ++ ms) :
      (r.act a).mail k = r.mail k ++ r.posted a k := by rw [posted_eq h, h]
  have hsilent (h : (r.act a).outbox = r.outbox) :
      (r.act a).mail k = r.mail k ++ r.posted a k :=
    hadds ((mail_congr h k).trans (List.append_nil _).symm)
  cases a with
  | connected peer | closed link => exact hsilent rfl
  | noticed => exact hsilent (outbox_noticeClosed r)
  | received link m =>
    obtain ⟨ms, hmail, -⟩ := mail_received r link m k
    exact hadds hmail
  | setup size =>
    rcases tables_of_setup r size with hsame | ⟨tables, hrun, htables⟩
    · exact hsilent hsame
    · exact hadds (mail_setup hrun htables k)
  | start count =>
    rcases admissible_of_start r count with hsame | ⟨hcount, hphase⟩
    · exact hsilent hsame
    · exact hadds (mail_start hcount hphase k)
  | elapsed ms =>
    rcases elapse_cases r ms with h | ⟨hphase, -, h⟩
    · exact hsilent ((congrArg outbox h).trans rfl)
    · exact hadds ((congrArg (mail · k) h).trans (mail_requestSummaries (r := r.aged ms) hphase k))

/-- **Summaries are asked for when a timer runs out while the registry drains.** -/
theorem request_of_posted {a : Action} (h : Message.trafficSummaryRequest ∈ r.posted a k) :
    ∃ ms, a = .elapsed ms ∧ r.phase = .draining ∧ ∃ t ∈ r.timers, t ≤ r.clock + ms := by
  cases a with
  | connected peer | closed link => rw [posted_silent rfl] at h; cases h
  | noticed => rw [posted_noticed] at h; cases h
  | received link m =>
    rcases posted_received r link m k with hp | ⟨status, info, hp | hp⟩
    · rw [hp] at h
      cases h
    · rw [hp, List.mem_singleton] at h
      cases h
    · rw [hp, List.mem_singleton] at h
      cases h
  | setup size =>
    rcases tables_of_setup r size with hsame | ⟨tables, hrun, htables⟩
    · rw [posted_silent (a := .setup size) hsame] at h
      cases h
    · rw [posted_setup hrun htables] at h
      obtain ⟨x, -, hx⟩ := List.mem_map.mp h
      cases hx
  | start count =>
    rcases admissible_of_start r count with hsame | ⟨hcount, hphase⟩
    · rw [posted_silent (a := .start count) hsame] at h
      cases h
    · rw [posted_start hcount hphase] at h
      obtain ⟨x, -, hx⟩ := List.mem_map.mp h
      cases hx
  | elapsed ms =>
    rcases elapse_cases r ms with haged | ⟨hphase, hdue, -⟩
    · rw [posted_elapsed_of_aged haged] at h
      cases h
    · exact ⟨ms, rfl, hphase, hdue⟩

end Registry

end RingOverlay
