import Mathlib.Data.List.Forall2
import RingOverlay.Proofs.Registry.Collection
import RingOverlay.Proofs.Registry.Losses

/-!
# Registry — bystanders

A bystander is somebody who takes no part in the present overlay.  `Bystands r asked r'` lists what
bystanders may do: connect, ask to join, ask to leave, and close a connection on which nobody who
takes part is registered, which the registry notices later.  A request that is refused is none of
the overlay's business either, whoever makes it.  `asked` is the request that comes in, if one does,
with its connection; `Aside r asked r'` is any number of such things, one after the other.

Whether somebody takes part is decided by the addresses that were written down at the setup, and
whether a connection is a participant's by the cache.  The two agree because whoever takes part is a
member (`hasAddress_of_participant`), so that its address cannot be registered anew.

* `bystanders_ignored`: **bystanders do not disturb an experiment**, and whoever takes part hears
  nothing but answers to its own requests.
-/

namespace RingOverlay

/-- The answers that a request to join or to leave may get. -/
inductive Message.AnsweredBy : Message → Message → Prop where
  | registration {a : PeerAddress} {status : Int32} {info : String} :
    AnsweredBy (.nodeRegisters a) (.registrationStatus status info)
  | deregistration {a : PeerAddress} {id : NodeId} {status : Int32} {info : String} :
    AnsweredBy (.nodeDeregisters a id) (.deregistrationStatus status info)

namespace Registry

/-- The requests that have come in on a connection over which answers can be sent. -/
def heardOn (r : Registry) (asked : List (LinkId × Message)) (k : LinkId) : List Message :=
  if r.links.isOpen k then (asked.filter (·.1 == k)).map Prod.snd else []

/-- From `r` to `r'`, the experiment goes on as it was, with the same nodes on the same
connections. -/
structure Unmoved (r r' : Registry) : Prop where
  stage : r'.stage = r.stage
  collector : r'.collector = r.collector
  pace : r'.pace = r.pace
  members : ∀ e ∈ r.membership.members, e.address ∈ r.participants → e ∈ r'.membership.members
  cached : ∀ a ∈ r.participants, r'.cache.get? a = r.cache.get? a
  isOpen : ∀ a ∈ r.participants, ∀ k, r.cache.get? a = some k →
    r'.links.isOpen k = r.links.isOpen k

/-- And no report is published, and whoever takes part is sent nothing but an answer to each of
the requests in `asked` that came in on its connection. -/
structure Undisturbed (r : Registry) (asked : List (LinkId × Message)) (r' : Registry) : Prop
    extends Unmoved r r' where
  reports : r'.reports = r.reports
  mail : ∀ a ∈ r.participants, ∀ k, r.cache.get? a = some k →
    ∃ answers, r'.mail k = r.mail k ++ answers ∧
      List.Forall₂ Message.AnsweredBy (r.heardOn asked k) answers

/-- What a bystander may do to a registry. -/
inductive Bystands (r : Registry) : List (LinkId × Message) → Registry → Prop where
  | connects (peer : Peer) : Bystands r [] (r.connect peer)
  | joins (link : LinkId) (a : PeerAddress) :
    Bystands r [(link, .nodeRegisters a)] (r.receive link (.nodeRegisters a))
  | leaves (link : LinkId) {a : PeerAddress} (id : NodeId) (ha : a ∉ r.participants) :
    Bystands r [(link, .nodeDeregisters a id)] (r.receive link (.nodeDeregisters a id))
  | refused {link : LinkId} {peer : Peer} {a : PeerAddress} {id : NodeId} {refusal : Refusal}
      (hpeer : r.links.end? link = some peer)
      (hrefused : r.membership.deregister a id peer.ip = .error refusal) :
    Bystands r [(link, .nodeDeregisters a id)] (r.receive link (.nodeDeregisters a id))
  | closes {c : LinkId} (hc : ∀ a ∈ r.participants, r.cache.get? a ≠ some c) :
    Bystands r [] (r.close c)
  | notices {w : Watch} (hw : w ∈ r.watches) (hclosed : w.link ∈ r.links.closed)
      (hc : ∀ a ∈ r.participants, r.cache.get? a ≠ some w.link) :
    Bystands r [] ({ r with watches := r.watches.erase w }.connectionLost w)

/-- What bystanders may do one after the other, and what is asked meanwhile. -/
inductive Aside (r : Registry) : List (LinkId × Message) → Registry → Prop where
  | refl : Aside r [] r
  | step {r' r'' : Registry} {asked asked' : List (LinkId × Message)} (h : Aside r asked r')
      (hstep : Bystands r' asked' r'') : Aside r (asked ++ asked') r''

variable {r r' r'' r₁ : Registry} {config : RegistryConfig} {draws : Draws} {size : Nat}
  {asked asked' : List (LinkId × Message)}

/-! ### What a handler comes to -/

theorem quiet_register_of_ok (link : LinkId) {peer : Peer} {a : PeerAddress} {id : NodeId}
    {membership : Membership} {draws : Draws}
    (h : r.membership.register a peer.ip r.draws = .ok (id, membership, draws)) :
    (r.register link peer a).quiet =
      { r with
        membership := membership
        draws := draws
        cache := r.cache.put a link
        watches := r.watches ++ [Watch.mk link a] }.quiet := by
  simp only [register, h]
  rw [quiet_answerRegistration, quiet_notice, quiet_log]

theorem quiet_register_of_error (link : LinkId) {peer : Peer} {a : PeerAddress} {refusal : Refusal}
    (h : r.membership.register a peer.ip r.draws = .error refusal) :
    (r.register link peer a).quiet = r.quiet := by
  simp only [register, h]
  rw [quiet_answerRegistration, quiet_notice, quiet_log]

/-- An overlay is not abandoned for somebody who takes no part in it. -/
theorem abandonOverlay_of_not_mem {a : PeerAddress} (ha : a ∉ r.participants) (reason : String) :
    r.abandonOverlay a reason = r := by
  unfold abandonOverlay
  split
  · rfl
  · next o ho =>
    refine if_neg fun hmem => ha ?_
    rwa [participants, ho]

theorem quiet_deregister_of_ok (link : LinkId) {peer : Peer} {a b : PeerAddress} {id : NodeId}
    {membership : Membership} (h : r.membership.deregister a id peer.ip = .ok (b, membership))
    (ha : a ∉ r.participants) :
    (r.deregister link peer a id).quiet =
      { r with membership := membership, cache := r.cache.erase a }.quiet := by
  have hkept := abandonOverlay_of_not_mem
    (r := { r with membership := membership, cache := r.cache.erase a }) ha "left the overlay"
  simp only [deregister, h, hkept]
  rw [quiet_answerDeregistration, quiet_notice, quiet_log]

theorem quiet_deregister_of_error (link : LinkId) {peer : Peer} {a : PeerAddress} {id : NodeId}
    {refusal : Refusal} (h : r.membership.deregister a id peer.ip = .error refusal) :
    (r.deregister link peer a id).quiet = r.quiet := by
  simp only [deregister, h]
  rw [quiet_answerDeregistration, quiet_notice, quiet_log]

theorem quiet_connectionLost {w : Watch} {id : Option NodeId} {membership : Membership}
    (hcurrent : r.cache.get? w.address = some w.link)
    (hremove : r.membership.removeAddress w.address = (id, membership))
    (hw : w.address ∉ r.participants) :
    (r.connectionLost w).quiet =
      { r with membership := membership, cache := r.cache.erase w.address }.quiet := by
  rw [connectionLost, if_pos hcurrent, hremove]
  dsimp only
  rw [abandonOverlay_of_not_mem, quiet_notice, quiet_log]
  rwa [participants_of_roll (roll_notice _ _)]

/-! ### Not disturbing -/

theorem Unmoved.refl (r : Registry) : Unmoved r r :=
  ⟨rfl, rfl, rfl, fun _ he _ => he, fun _ _ => rfl, fun _ _ _ _ => rfl⟩

theorem Unmoved.of_quiet (hquiet : r'.quiet = r₁.quiet) (h : Unmoved r r₁) : Unmoved r r' := by
  have hroll := roll_congr hquiet
  have hmembership : r'.membership = r₁.membership := congrArg Roll.membership hroll
  have hcache : r'.cache = r₁.cache := congrArg Roll.cache hroll
  have hlinks : r'.links = r₁.links := congrArg Roll.links hroll
  refine ⟨(stage_congr hquiet).trans h.stage,
    (congrArg Gathered.collector (gathered_congr hquiet)).trans h.collector,
    (pace_congr hquiet).trans h.pace, ?_, ?_, ?_⟩
  · rw [hmembership]
    exact h.members
  · rw [hcache]
    exact h.cached
  · rw [hlinks]
    exact h.isOpen

/-- Nobody who takes part is at an address that is taken out. -/
theorem Unmoved.erase (h : Sound size [] r.roll) {a : PeerAddress} {id : NodeId}
    (he : ⟨id, a⟩ ∈ r.membership.members) (ha : a ∉ r.participants) :
    Unmoved r { r with
      membership := { r.membership with members := Membership.erase id r.membership.members }
      cache := r.cache.erase a } := by
  refine ⟨rfl, rfl, rfl, fun e hmem hin => Membership.mem_erase.mpr ⟨hmem, fun hid => ha ?_⟩,
    fun b hb => Cache.get?_erase_of_ne _ _ fun hba => ha (hba ▸ hb), fun _ _ _ _ => rfl⟩
  obtain rfl := h.members.eq_of_id hmem he hid
  exact hin

namespace Undisturbed

/-- Nothing is asked, and nothing is said. -/
theorem of_silent (h : Unmoved r r') (houtbox : r'.outbox = r.outbox) : Undisturbed r [] r' := by
  refine ⟨h, reports_congr houtbox, fun a _ k _ => ⟨[], ?_, ?_⟩⟩
  · rw [mail_congr houtbox, List.append_nil]
  · unfold heardOn
    split <;> exact .nil

/-- A request is answered. -/
theorem of_answer {link : LinkId} {q m : Message} (h : Unmoved r r') (hm : q.AnsweredBy m)
    (hreply : r.Replies link m r') : Undisturbed r [(link, q)] r' := by
  refine ⟨h, hreply.reports, fun a _ k _ => ⟨r.answering link m k, hreply.mail k, ?_⟩⟩
  unfold heardOn answering
  by_cases hopen : r.links.isOpen k = true
  · by_cases hlink : link = k
    · simpa [hopen, hlink] using hm
    · simp [hopen, hlink]
  · simp [hopen]

theorem refl (r : Registry) : Undisturbed r [] r := of_silent (.refl r) rfl

theorem trans (h : Undisturbed r asked r') (h' : Undisturbed r' asked' r'') :
    Undisturbed r (asked ++ asked') r'' := by
  have hparticipants : r'.participants = r.participants := participants_of_stage h.stage
  have hin : ∀ a ∈ r.participants, a ∈ r'.participants := fun a ha => hparticipants ▸ ha
  have hcached : ∀ a ∈ r.participants, ∀ k, r.cache.get? a = some k → r'.cache.get? a = some k :=
    fun a ha k hk => (h.cached a ha).trans hk
  have hopen : ∀ a ∈ r.participants, ∀ k, r.cache.get? a = some k →
      r'.links.isOpen k = r.links.isOpen k := h.isOpen
  refine ⟨⟨h'.stage.trans h.stage, h'.collector.trans h.collector, h'.pace.trans h.pace,
    fun e he ha => h'.members e (h.members e he ha) (hin _ ha),
    fun a ha => (h'.cached a (hin a ha)).trans (h.cached a ha),
    fun a ha k hk => (h'.isOpen a (hin a ha) k (hcached a ha k hk)).trans (hopen a ha k hk)⟩,
    h'.reports.trans h.reports, fun a ha k hk => ?_⟩
  obtain ⟨answers, hmail, hanswers⟩ := h.mail a ha k hk
  obtain ⟨answers', hmail', hanswers'⟩ := h'.mail a (hin a ha) k (hcached a ha k hk)
  refine ⟨answers ++ answers', by rw [hmail', hmail, List.append_assoc], ?_⟩
  have hsplit : r.heardOn (asked ++ asked') k = r.heardOn asked k ++ r'.heardOn asked' k := by
    unfold heardOn
    rw [hopen a ha k hk]
    split
    · rw [List.filter_append, List.map_append]
    · rfl
  rw [hsplit]
  exact List.rel_append hanswers hanswers'

end Undisturbed

/-! ### What bystanders do -/

/-- Whoever takes part is a member, and cannot be registered anew. -/
theorem undisturbed_register (h : Sound size [] r.roll) (link : LinkId) (peer : Peer)
    (a : PeerAddress) : Undisturbed r [(link, .nodeRegisters a)] (r.register link peer a) := by
  cases hjudged : r.membership.register a peer.ip r.draws with
  | ok x =>
    obtain ⟨id, membership, draws⟩ := x
    obtain ⟨hadmits, -, -, rfl⟩ := Membership.register_eq_ok hjudged
    refine .of_answer (.of_quiet (quiet_register_of_ok link hjudged) ⟨rfl, rfl, rfl,
      fun e he _ => ?_, fun b hb => ?_, fun _ _ _ _ => rfl⟩) .registration
      (replies_register_of_ok link hjudged)
    · exact Membership.mem_insert.mpr (.inr he)
    · refine Cache.get?_put_of_ne _ _ _ ?_
      rintro rfl
      have htaken := hasAddress_of_participant h hb
      exact Bool.false_ne_true (hadmits.new.symm.trans htaken)
  | error refusal =>
    exact .of_answer (.of_quiet (quiet_register_of_error link hjudged) (.refl r)) .registration
      (replies_register_of_error link hjudged)

theorem undisturbed_deregister_of_error (link : LinkId) {peer : Peer} {a : PeerAddress}
    {id : NodeId} {refusal : Refusal} (h : r.membership.deregister a id peer.ip = .error refusal) :
    Undisturbed r [(link, .nodeDeregisters a id)] (r.deregister link peer a id) :=
  .of_answer (.of_quiet (quiet_deregister_of_error link h) (.refl r)) .deregistration
    (replies_deregister_of_error link h)

theorem undisturbed_deregister (h : Sound size [] r.roll) (link : LinkId) (peer : Peer)
    {a : PeerAddress} (id : NodeId) (ha : a ∉ r.participants) :
    Undisturbed r [(link, .nodeDeregisters a id)] (r.deregister link peer a id) := by
  cases hjudged : r.membership.deregister a id peer.ip with
  | ok x =>
    obtain ⟨b, membership⟩ := x
    obtain ⟨he, rfl⟩ := Membership.deregister_eq_ok hjudged
    exact .of_answer (.of_quiet (quiet_deregister_of_ok link hjudged ha) (.erase h he ha))
      .deregistration (replies_deregister_of_ok link hjudged)
  | error refusal => exact undisturbed_deregister_of_error link hjudged

/-- A connection that is made is nobody's yet. -/
theorem undisturbed_connect (h : Sound size [] r.roll) (peer : Peer) :
    Undisturbed r [] (r.connect peer) := by
  refine .of_silent ⟨rfl, rfl, rfl, fun _ he _ => he, fun _ _ => rfl, fun a _ k hk => ?_⟩ rfl
  obtain ⟨far, hfar, -⟩ := h.observed a k hk
  have hmade := Links.end?_isSome_iff.mp (Option.isSome_of_eq_some hfar)
  exact Links.isOpen_connect_of_ne (Nat.ne_of_lt hmade)

theorem undisturbed_close {c : LinkId} (hc : ∀ a ∈ r.participants, r.cache.get? a ≠ some c) :
    Undisturbed r [] (r.close c) := by
  refine .of_silent ⟨rfl, rfl, rfl, fun _ he _ => he, fun _ _ => rfl, fun a ha k hk => ?_⟩ rfl
  exact Links.isOpen_close_of_ne fun hkc => hc a ha (hkc ▸ hk)

/-- Whoever is lost with the connection takes no part, as it is registered over it. -/
theorem undisturbed_notice (h : Sound size [] r.roll) {w : Watch}
    (hc : ∀ a ∈ r.participants, r.cache.get? a ≠ some w.link) :
    Undisturbed r [] ({ r with watches := r.watches.erase w }.connectionLost w) := by
  refine .of_silent ?_ (outbox_connectionLost _ w)
  by_cases hcurrent : r.cache.get? w.address = some w.link
  · have hw : w.address ∉ r.participants := fun hw => hc _ hw hcurrent
    obtain ⟨id, he⟩ := h.exists_member hcurrent
    have hremove := h.members.removeAddress_of_mem he
    have hquiet := quiet_connectionLost (r := { r with watches := r.watches.erase w }) hcurrent
      hremove hw
    have herase := Unmoved.erase h he hw
    exact .of_quiet hquiet ⟨rfl, rfl, rfl, herase.members, herase.cached, fun _ _ _ _ => rfl⟩
  · have hstale : { r with watches := r.watches.erase w }.connectionLost w =
        { r with watches := r.watches.erase w } := if_neg hcurrent
    rw [hstale]
    exact ⟨rfl, rfl, rfl, fun _ he _ => he, fun _ _ => rfl, fun _ _ _ _ => rfl⟩

/-- A request on a connection that was never made is not heard. -/
theorem undisturbed_of_unmade (h : Sound size [] r.roll) {link : LinkId} (q : Message)
    (hend : r.links.end? link = none) : Undisturbed r [(link, q)] r := by
  refine ⟨.refl r, rfl, fun a _ k hk => ⟨[], (List.append_nil _).symm, ?_⟩⟩
  obtain ⟨far, hfar, -⟩ := h.observed a k hk
  have hne : link ≠ k := by
    rintro rfl
    rw [show r.roll.links.end? link = none from hend] at hfar
    cases hfar
  unfold heardOn
  simp [hne]

/-- **What one bystander does** disturbs nothing. -/
theorem Bystands.undisturbed (h : Bystands r asked r') (hsound : Sound size [] r.roll) :
    Undisturbed r asked r' := by
  cases h with
  | connects peer => exact undisturbed_connect hsound peer
  | joins link a =>
    cases hpeer : r.links.end? link with
    | none =>
      rw [receive, hpeer]
      exact undisturbed_of_unmade hsound _ hpeer
    | some peer =>
      rw [receive, hpeer]
      exact undisturbed_register hsound link peer a
  | leaves link id ha =>
    cases hpeer : r.links.end? link with
    | none =>
      rw [receive, hpeer]
      exact undisturbed_of_unmade hsound _ hpeer
    | some peer =>
      rw [receive, hpeer]
      exact undisturbed_deregister hsound link peer id ha
  | refused hpeer hrefused =>
    rw [receive, hpeer]
    exact undisturbed_deregister_of_error _ hrefused
  | closes hc => exact undisturbed_close hc
  | notices hw hclosed hc => exact undisturbed_notice hsound hc

theorem Bystands.occurs (h : Bystands r asked r') (hr : Occurs config draws r) :
    Occurs config draws r' := by
  cases h with
  | connects peer => exact hr.act (.connected peer)
  | joins link a => exact hr.act (.received link _)
  | leaves link id ha => exact hr.act (.received link _)
  | refused hpeer hrefused => exact hr.act (.received _ _)
  | closes hc => exact hr.act (.closed _)
  | notices hw hclosed hc => exact hr.notice hw hclosed

/-- **Bystanders do not disturb an experiment.**  Whatever has happened to a registry, and whatever
those then do who take no part in its overlay: its phase, its overlay, the progress made and what
was collected stay as they are, timers run on, and whoever takes part is registered as before and is
sent nothing but an answer for each request that came in on its connection. -/
theorem bystanders_ignored (h : Occurs config draws r) (haside : Aside r asked r') :
    Undisturbed r asked r' ∧ Occurs config draws r' := by
  induction haside with
  | refl => exact ⟨.refl r, h⟩
  | step _ hstep ih =>
    obtain ⟨hundisturbed, hoccurs⟩ := ih
    exact ⟨hundisturbed.trans (hstep.undisturbed hoccurs.sound), hstep.occurs hoccurs⟩

/-- While two nodes send packets, a third joins over a connection of its own, leaves and is gone,
and the first of the two asks to be registered again: it is refused, and nothing else happens. -/
theorem bystanders_ignored_third :
    ∃ r', (pairRegistry.run pairStarts).phase = .running ∧
      Undisturbed (pairRegistry.run pairStarts)
        [(2, .nodeRegisters ⟨"127.0.0.1", 7003⟩), (0, .nodeRegisters ⟨"127.0.0.1", 7001⟩),
          (2, .nodeDeregisters ⟨"127.0.0.1", 7003⟩ (0 : NodeId))] r' ∧ r'.phase = .running := by
  have hoccurs : Occurs {} (.ofList [5, 9]) (pairRegistry.run pairStarts) :=
    Occurs.initial.run pairStarts
  have hthird := Aside.refl.step (Bystands.connects (r := pairRegistry.run pairStarts)
    ⟨.loopback, "127.0.0.1:40003"⟩)
  have hjoined := (hthird.step (.joins 2 ⟨"127.0.0.1", 7003⟩)).step (.joins 0 ⟨"127.0.0.1", 7001⟩)
  have hleft := hjoined.step (.leaves 2 (0 : NodeId) (a := ⟨"127.0.0.1", 7003⟩) (by decide))
  have hclosed := hleft.step (.closes (c := 2) (by decide))
  have hgone := hclosed.step (.notices (w := ⟨2, ⟨"127.0.0.1", 7003⟩⟩) (by decide) (by decide)
    (by decide))
  obtain ⟨hundisturbed, -⟩ := bystanders_ignored hoccurs hgone
  have hphase : (pairRegistry.run pairStarts).phase = .running := by decide
  exact ⟨_, hphase, hundisturbed, (congrArg Stage.phase hundisturbed.stage).trans hphase⟩

end Registry

end RingOverlay
