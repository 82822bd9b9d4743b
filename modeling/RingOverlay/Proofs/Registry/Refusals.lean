import RingOverlay.Proofs.Registry.Deeds
import RingOverlay.Proofs.Registry.Stage
import RingOverlay.Proofs.Text.Numerals

/-!
# Registry — what it refuses

A command is refused for what the registry is before it, and a request for what the membership is:
the phase, the tables, the count and whom it reaches decide over commands (`setup_refused_iff`,
`start_refused_iff`), and the membership alone over requests.  A refused start has tried to reach
every participant, but has reached nobody, so that nothing has gone out.

* `refusals_exact`: **refusals leave no trace, and requests are answered once.**
-/

namespace RingOverlay

/-- From `m` to `m'`, the node `id` at `a` has come, and nobody else has come or gone. -/
structure Membership.Gains (m : Membership) (id : NodeId) (a : PeerAddress) (m' : Membership) :
    Prop where
  absent : m.get? id = none
  present : m'.get? id = some a
  others : m'.members.Perm (⟨id, a⟩ :: m.members)

namespace Membership

variable {m m' : Membership} {id : NodeId} {a : PeerAddress}

theorem Gains.ne (h : m.Gains id a m') : m' ≠ m := by
  rintro rfl
  cases h.absent.symm.trans h.present

theorem InOrder.gains_insert (h : m.InOrder) (hfree : m.isFree id = true)
    (hlt : id.val < m.capacity) (hnew : m.hasAddress a = false) :
    m.Gains id a { m with members := Membership.insert ⟨id, a⟩ m.members } where
  absent := Option.map_eq_none_iff.mpr (Option.isNone_iff_eq_none.mp hfree)
  present := (h.insert hfree hlt hnew).get?_of_mem (mem_insert.mpr (.inl rfl))
  others := insert_perm ⟨id, a⟩ m.members

theorem InOrder.gains_erase (h : m.InOrder) (he : ⟨id, a⟩ ∈ m.members) :
    Gains { m with members := Membership.erase id m.members } id a m where
  absent := Option.map_eq_none_iff.mpr (List.find?_eq_none.mpr fun _ hleft hid =>
    (mem_erase.mp hleft).2 (beq_iff_eq.mp hid))
  present := h.get?_of_mem he
  others := h.perm_erase he

end Membership

theorem Phase.isRun_iff {p : Phase} :
    p.isRun = true ↔ p = .running ∨ p = .draining ∨ p = .collecting := by
  cases p <;> decide

namespace Registry

/-- From `r` to `r'`, nothing has happened but that the registry has logged or printed something. -/
structure Untouched (r r' : Registry) : Prop where
  same : r'.quiet = r.quiet
  silent : r'.outbox = r.outbox

/-- What comes of a request on `link` that the membership has judged.  A refusal changes nothing,
and is answered with failure; a node that is accepted is answered with its identifier, and with how
many nodes there are now. -/
structure Settles (r : Registry) (link : LinkId) (request : String)
    (answer : Int32 → String → Message) (judged : Except Refusal NodeId) (r' : Registry) :
    Prop where
  refused_iff : r'.membership = r.membership ↔ ∃ refusal, judged = .error refusal
  refused : ∀ refusal, judged = .error refusal → r'.quiet = r.quiet ∧
    r.Replies link (answer failureStatus s!"{request} request failed: {refusal.message}") r'
  accepted : ∀ id, judged = .ok id →
    r.Replies link (answer id.status (request ++
      " request successful. The number of messaging nodes currently constituting the " ++
        ("overlay is (" ++ toString r'.membership.members.length ++ ")"))) r'

variable {r r' : Registry} {size : Option Nat} {count : UInt32} {m : Message} {a : PeerAddress}

/-! ### Sending to nobody -/

theorem outbox_send (h : (r.send a m).2 = false) : (r.send a m).1.outbox = r.outbox := by
  unfold send at h ⊢
  split
  · rfl
  · next hlink =>
    rw [hlink] at h
    split
    · next hopen =>
      simp only [hopen, if_true] at h
      cases h
    · rfl

theorem outbox_sendEach {as : List PeerAddress} (h : (sendEach m as r).2 = 0) :
    (sendEach m as r).1.outbox = r.outbox := by
  induction as generalizing r with
  | nil => rfl
  | cons a as ih =>
    change (if (r.send a m).2 then (sendEach m as (r.send a m).1).2 + 1
      else (sendEach m as (r.send a m).1).2) = 0 at h
    cases hreached : (r.send a m).2 with
    | true =>
      rw [hreached] at h
      cases h
    | false =>
      rw [hreached] at h
      exact (ih h).trans (outbox_send hreached)

/-- A broadcast that reaches nobody is silent. -/
theorem outbox_broadcast (h : (r.broadcast m).2 = 0) : (r.broadcast m).1.outbox = r.outbox := by
  unfold broadcast at h ⊢
  split
  · next o ho =>
    rw [ho] at h
    exact outbox_sendEach h
  · rfl

/-- Nobody is told if no participant's cached connection is open. -/
theorem told_eq_zero_iff : (r.told m).length = 0 ↔
    ∀ a ∈ r.participants, ∀ link, r.cache.get? a = some link → r.links.isOpen link = false := by
  have htold : r.told m = r.participants.filter fun a => (r.send a m).2 := by
    unfold told participants
    cases r.overlay <;> rfl
  rw [htold, List.length_eq_zero_iff, List.filter_eq_nil_iff]
  refine forall₂_congr fun a _ => ?_
  rw [send_snd_iff, not_exists]
  refine forall_congr' fun link => ?_
  rw [reachedOver_iff, not_and, Bool.not_eq_true]

/-! ### Commands -/

theorem setup_refused_iff : (r.setup size).2.isOk = false ↔ r.phase.isRun = true ∨
    ∃ e, Layout.tables r.membership.members (size.getD r.config.defaultTableSize) = .error e := by
  refine ⟨fun h => ?_, fun h => (setup_refused size h).1⟩
  by_contra hgood
  obtain ⟨hrun, htables⟩ := not_or.mp hgood
  cases hlaid : Layout.tables r.membership.members (size.getD r.config.defaultTableSize) with
  | error e => exact htables ⟨e, hlaid⟩
  | ok tables =>
    rw [(setup_eq_ok (Bool.not_eq_true _ ▸ hrun) hlaid).1] at h
    cases h

/-- A setup fails before it has sent anything. -/
theorem untouched_setup (h : (r.setup size).2.isOk = false) : r.Untouched (r.setup size).1 := by
  have hreason := setup_refused_iff.mp h
  refine ⟨?_, outbox_setup_refused hreason⟩
  unfold setup
  split
  · rfl
  · next hrun =>
    obtain ⟨e, he⟩ := hreason.resolve_left hrun
    simp only [he]

theorem start_refused_iff : (r.start count).2.isOk = false ↔
    maxCount < count ∨ r.phase ≠ .ready ∨
      ∀ a ∈ r.participants, ∀ link, r.cache.get? a = some link →
        r.links.isOpen link = false := by
  rw [← told_eq_zero_iff (m := .taskInitiate count)]
  refine ⟨fun h => ?_, fun h => (start_refused count h).1⟩
  by_contra hgood
  obtain ⟨hcount, hrest⟩ := not_or.mp hgood
  obtain ⟨hphase, htold⟩ := not_or.mp hrest
  rw [(start_eq_ok hcount (Decidable.not_not.mp hphase) htold).1] at h
  cases h

/-- A start fails before it has sent anything, or because nobody could be sent to. -/
theorem untouched_start (h : (r.start count).2.isOk = false) : r.Untouched (r.start count).1 := by
  by_cases hearly : maxCount < count ∨ r.phase ≠ .ready
  · refine ⟨?_, outbox_start_refused hearly⟩
    unfold start
    split
    · rfl
    · next hcount =>
      split
      · rfl
      · rfl
      · next hready => exact absurd hready (hearly.resolve_left hcount)
      · rfl
  · obtain ⟨hcount, hphase⟩ := not_or.mp hearly
    replace hphase := Decidable.not_not.mp hphase
    have hnobody := ((start_refused_iff.mp h).resolve_left hcount).resolve_left
      (not_not_intro hphase)
    have hzero : (r.broadcast (.taskInitiate count)).2 = 0 := by
      rw [broadcast_snd]
      exact told_eq_zero_iff.mpr hnobody
    have hsame : (r.start count).1 = (r.broadcast (.taskInitiate count)).1 := by
      simp only [start, if_neg hcount, hphase, hzero, if_true]
    rw [hsame]
    exact ⟨quiet_broadcast r _, outbox_broadcast hzero⟩

/-! ### Requests -/

/-- The outcome of an accepted request ends with the number of nodes, in decimal and in brackets. -/
theorem toList_acceptance (request : String) (nodes : Nat) :
    (acceptance request nodes).toList =
      (request ++
        " request successful. The number of messaging nodes currently constituting the " ++
          "overlay is (").toList ++ (Text.decimal nodes ++ [')']) := by
  change (request ++ _ ++ (_ ++ toString nodes ++ ")")).toList = _
  simp only [String.toList_append, Text.toList_toString, List.append_assoc]
  rfl

/-- Two numbers of nodes are never told alike. -/
theorem acceptance_injective (request : String) : Function.Injective (acceptance request) := by
  intro m n h
  replace h := congrArg String.toList h
  rw [toList_acceptance, toList_acceptance] at h
  exact Text.decimal_injective (List.append_cancel_right (List.append_cancel_left h))

section Requests

variable {link : LinkId} {peer : Peer} {id : NodeId} {request : String}
  {answer : Int32 → String → Message} {judged : Except Refusal NodeId} {refusal : Refusal}

theorem Settles.of_error (hjudged : judged = .error refusal) (hsame : r'.quiet = r.quiet)
    (hreplies : r.Replies link
      (answer failureStatus s!"{request} request failed: {refusal.message}") r') :
    r.Settles link request answer judged r' where
  refused_iff :=
    ⟨fun _ => ⟨refusal, hjudged⟩, fun _ => congr_of_quiet membership (fun _ => rfl) hsame⟩
  refused refusal' h := by
    obtain rfl : refusal = refusal' := Except.error.inj (hjudged.symm.trans h)
    exact ⟨hsame, hreplies⟩
  accepted id h := by cases hjudged.symm.trans h

theorem Settles.of_ok (hjudged : judged = .ok id) (hchanged : r'.membership ≠ r.membership)
    (hreplies : r.Replies link (answer id.status (acceptance request r'.membership.size)) r') :
    r.Settles link request answer judged r' where
  refused_iff := ⟨fun h => absurd h hchanged, fun ⟨_, h⟩ => by cases hjudged.symm.trans h⟩
  refused refusal h := by cases hjudged.symm.trans h
  accepted id' h := by
    obtain rfl : id = id' := Except.ok.inj (hjudged.symm.trans h)
    exact hreplies

/-- A request to join that is accepted adds the node, and is settled. -/
theorem settles_register (h : r.membership.InOrder) (link : LinkId) (peer : Peer)
    (a : PeerAddress) :
    r.Settles link "Registration" .registrationStatus
      ((r.membership.register a peer.ip r.draws).map Prod.fst) (r.register link peer a) ∧
    ∀ id, (r.membership.register a peer.ip r.draws).map Prod.fst = .ok id →
      r.membership.Gains id a (r.register link peer a).membership := by
  cases hjudged : r.membership.register a peer.ip r.draws with
  | error refusal =>
    refine ⟨.of_error rfl ?_ (replies_register_of_error link hjudged), fun _ h => nomatch h⟩
    simp only [register, hjudged]
    exact (quiet_answerRegistration _ _ _ _).trans (quiet_notice _ _)
  | ok x =>
    obtain ⟨id, membership, draws⟩ := x
    have hreplies := replies_register_of_ok link hjudged
    have hafter : (r.register link peer a).membership = membership := by
      simp only [register, hjudged]
      exact congr_of_quiet Registry.membership (fun _ => rfl)
        ((quiet_answerRegistration _ _ _ _).trans (quiet_notice _ _))
    obtain ⟨hadmits, hfree, hlt, rfl⟩ := Membership.register_eq_ok hjudged
    have hgains : r.membership.Gains id a (r.register link peer a).membership :=
      hafter ▸ h.gains_insert hfree hlt hadmits.new
    refine ⟨.of_ok rfl hgains.ne (hafter ▸ hreplies), fun id' hid => ?_⟩
    obtain rfl : id = id' := Except.ok.inj hid
    exact hgains

/-- A request to leave that is accepted removes the node, and is settled. -/
theorem settles_deregister (h : r.membership.InOrder) (link : LinkId) (peer : Peer)
    (a : PeerAddress) (id : NodeId) :
    r.Settles link "Deregistration" .deregistrationStatus
      ((r.membership.deregister a id peer.ip).map fun _ => id) (r.deregister link peer a id) ∧
    ((r.membership.deregister a id peer.ip).isOk = true →
      (r.deregister link peer a id).membership.Gains id a r.membership) := by
  cases hjudged : r.membership.deregister a id peer.ip with
  | error refusal =>
    refine ⟨.of_error rfl ?_ (replies_deregister_of_error link hjudged), fun h => nomatch h⟩
    simp only [deregister, hjudged]
    exact (quiet_answerDeregistration _ _ _ _).trans (quiet_notice _ _)
  | ok x =>
    obtain ⟨b, membership⟩ := x
    have hreplies := replies_deregister_of_ok link hjudged
    have hafter : (r.deregister link peer a id).membership = membership := by
      simp only [deregister, hjudged]
      refine (congr_of_quiet Registry.membership (fun _ => rfl)
        ((quiet_answerDeregistration _ _ _ _).trans (quiet_notice _ _))).trans ?_
      change (abandonOverlay _ _ _).ledger.roll.membership = membership
      rw [ledger_abandonOverlay, Ledger.membership_abandon]
      rfl
    obtain ⟨he, rfl⟩ := Membership.deregister_eq_ok hjudged
    have hgains : (r.deregister link peer a id).membership.Gains id a r.membership :=
      hafter ▸ h.gains_erase he
    exact ⟨.of_ok rfl hgains.ne.symm (hafter ▸ hreplies), fun _ => hgains⟩

end Requests

/-! ### Whatever has happened before -/

variable {config : RegistryConfig} {draws : Draws}

/-- **Refusals leave no trace, and requests are answered once.**  Whatever has happened to a
registry, it refuses to set up exactly while a run is in progress or where no tables can be made; to
start exactly if the count does not fit, it is not ready, or no participant has an open connection
in the cache; and a request exactly if the membership refuses it.  After a refusal it is what it
was, and nothing has gone out but the answer to a request.  A request that is accepted is answered
with the identifier that is added or removed, and with the number of nodes after that. -/
theorem refusals_exact (h : Occurs config draws r) :
    (∀ size : Option Nat,
      ((r.setup size).2.isOk = false ↔
        (r.phase = .running ∨ r.phase = .draining ∨ r.phase = .collecting) ∨
          ∃ e, Layout.tables r.membership.members (size.getD r.config.defaultTableSize) =
            .error e) ∧
      ((r.setup size).2.isOk = false → r.Untouched (r.setup size).1)) ∧
    (∀ count : UInt32,
      ((r.start count).2.isOk = false ↔ maxCount < count ∨ r.phase ≠ .ready ∨
        ∀ a ∈ r.participants, ∀ link, r.cache.get? a = some link →
          r.links.isOpen link = false) ∧
      ((r.start count).2.isOk = false → r.Untouched (r.start count).1)) ∧
    (∀ link peer a, r.links.end? link = some peer →
      r.Settles link "Registration" .registrationStatus
        ((r.membership.register a peer.ip r.draws).map Prod.fst)
        (r.receive link (.nodeRegisters a)) ∧
      ∀ id, (r.membership.register a peer.ip r.draws).map Prod.fst = .ok id →
        r.membership.Gains id a (r.receive link (.nodeRegisters a)).membership) ∧
    ∀ link peer a id, r.links.end? link = some peer →
      r.Settles link "Deregistration" .deregistrationStatus
        ((r.membership.deregister a id peer.ip).map fun _ => id)
        (r.receive link (.nodeDeregisters a id)) ∧
      ((r.membership.deregister a id peer.ip).isOk = true →
        (r.receive link (.nodeDeregisters a id)).membership.Gains id a r.membership) := by
  have hmembers := h.sound.members
  have hreceive : ∀ {link : LinkId} {peer : Peer} (m : Message), r.links.end? link = some peer →
      r.receive link m = r.handle link peer m := fun m hpeer => by rw [receive, hpeer]
  refine ⟨fun size => ⟨?_, untouched_setup⟩, fun count => ⟨start_refused_iff, untouched_start⟩,
    fun link peer a hpeer => ?_, fun link peer a id hpeer => ?_⟩
  · rw [setup_refused_iff, Phase.isRun_iff]
  · rw [hreceive _ hpeer]
    exact settles_register hmembers link peer a
  · rw [hreceive _ hpeer]
    exact settles_deregister hmembers link peer a id

/-- A registry with one node. -/
def oneNode : Registry :=
  (initial {} (.ofList [21])).run
    [.connected ⟨.loopback, "127.0.0.1:40001"⟩, .received 0 (.nodeRegisters ⟨"127.0.0.1", 7001⟩)]

/-- It refuses to start, and it refuses the node that is registered already; it lets it go, and
tells it that nobody is left. -/
theorem refusals_exact_oneNode :
    oneNode.Untouched (oneNode.start 1).1 ∧
    (oneNode.receive 0 (.nodeRegisters ⟨"127.0.0.1", 7001⟩)).quiet = oneNode.quiet ∧
    (oneNode.receive 0 (.nodeDeregisters ⟨"127.0.0.1", 7001⟩ (21 : NodeId))).membership.Gains
      (21 : NodeId) ⟨"127.0.0.1", 7001⟩ oneNode.membership ∧
    oneNode.Replies 0 (.deregistrationStatus 21 ("Deregistration request successful. " ++
        "The number of messaging nodes currently constituting the overlay is (0)"))
      (oneNode.receive 0 (.nodeDeregisters ⟨"127.0.0.1", 7001⟩ (21 : NodeId))) := by
  have h : Occurs {} (.ofList [21]) oneNode := Occurs.initial.run _
  have hpeer : oneNode.links.end? 0 = some ⟨.loopback, "127.0.0.1:40001"⟩ := by decide
  have htaken : (oneNode.membership.register ⟨"127.0.0.1", 7001⟩ .loopback oneNode.draws).map
      Prod.fst = .error (.addressTaken ⟨"127.0.0.1", 7001⟩) := by
    decide
  obtain ⟨-, hstart, hjoin, hleave⟩ := refusals_exact h
  refine ⟨(hstart 1).2 ((hstart 1).1.mpr (.inr (.inl (by decide)))), ?_, ?_, ?_⟩
  · exact ((hjoin 0 _ ⟨"127.0.0.1", 7001⟩ hpeer).1.refused _ htaken).1
  · exact (hleave 0 _ ⟨"127.0.0.1", 7001⟩ 21 hpeer).2 (by decide)
  · have hreply := (hleave 0 _ ⟨"127.0.0.1", 7001⟩ 21 hpeer).1.accepted 21 (by decide)
    have hleft : (oneNode.receive 0
        (.nodeDeregisters ⟨"127.0.0.1", 7001⟩ (21 : NodeId))).membership.members = [] := by decide
    rw [hleft] at hreply
    exact hreply

end Registry

end RingOverlay
