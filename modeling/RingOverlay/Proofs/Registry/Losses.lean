import Mathlib.Data.List.Perm.Subperm
import RingOverlay.Proofs.Registry.Consistency
import RingOverlay.Proofs.Registry.Stage

/-!
# Registry — who is lost with a connection

Every registration is watched, and its watch is never taken back.  When a connection closes, there
may be many watches on it, of nodes that have left since or are registered elsewhere by now, and the
registry acts on them one by one, in no particular order.

`Without gone r r'` says that `r'` is `r` without the members at the addresses that are `gone`: they
are out of the membership and the cache, everybody else stays as they were, and the overlay is
dropped if and only if one of them took part in it.  Acting on one watch is such a step
(`without_connectionLost`), and so acting on many is one (`without_noticeEach`).

`Recorded regs r` are the states that may occur, with the registrations that were accepted so far.
A member's cached connection is the one that it was last registered over (`Recorded.cached`).

* `closing_noticed`: **a connection that is lost takes with it the members that were last registered
  over it, and nobody else.**
-/

namespace RingOverlay

namespace Registry

variable {r r' r'' : Registry} {size : Nat} {ws : List Watch} {w : Watch} {a : PeerAddress}

/-- `r'` is `r` without the members at the addresses that are gone. -/
structure Without (gone : PeerAddress → Bool) (r r' : Registry) : Prop where
  members : r'.membership.members = r.membership.members.filter fun e => !gone e.address
  cache : ∀ a, r'.cache.get? a = if gone a then none else r.cache.get? a
  stage : r'.stage = if r.participants.any gone then .idle else r.stage

theorem Without.refl (r : Registry) : Without (fun _ => false) r r where
  members := by simp
  cache _ := rfl
  stage := by simp

theorem Without.congr {gone gone' : PeerAddress → Bool} (h : Without gone r r')
    (hgone : ∀ a, gone a = gone' a) : Without gone' r r' := by
  obtain rfl : gone = gone' := funext hgone
  exact h

theorem participants_of_stage (h : r'.stage = r.stage) : r'.participants = r.participants :=
  participants_of_overlay (congrArg Stage.overlay h)

theorem participants_of_idle (h : r.stage = .idle) : r.participants = [] := by
  have hoverlay : r.overlay = none := congrArg Stage.overlay h
  rw [participants, hoverlay]

theorem Without.trans {gone gone' : PeerAddress → Bool} (h : Without gone r r')
    (h' : Without gone' r' r'') : Without (fun a => gone a || gone' a) r r'' where
  members := by
    rw [h'.members, h.members, List.filter_filter]
    refine List.filter_congr fun e _ => ?_
    rw [Bool.not_or, Bool.and_comm]
  cache a := by
    rw [h'.cache, h.cache]
    cases gone a <;> cases gone' a <;> rfl
  stage := by
    have hany : r.participants.any (fun a => gone a || gone' a) =
        (r.participants.any gone || r.participants.any gone') := by
      rw [Bool.eq_iff_iff]
      simp [exists_or, and_or_left]
    rw [h'.stage, hany]
    cases hgone : r.participants.any gone with
    | true =>
      have hidle : r'.stage = .idle := by rw [h.stage, hgone]; rfl
      rw [participants_of_idle hidle, hidle]
      rfl
    | false =>
      have hsame : r'.stage = r.stage := by rw [h.stage, hgone]; rfl
      rw [participants_of_stage hsame, hsame, Bool.false_or]

/-- Somebody who takes part in the overlay of `r` is a member no longer in `r'`. -/
def ParticipantLeaves (r r' : Registry) : Prop :=
  ∃ e ∈ r.membership.members, e ∉ r'.membership.members ∧ e.address ∈ r.participants

instance (r r' : Registry) : Decidable (ParticipantLeaves r r') :=
  inferInstanceAs (Decidable (∃ e ∈ r.membership.members, _))

/-- The experiment ends with the first participant that is gone, and goes on otherwise. -/
theorem Without.stage_eq {gone : PeerAddress → Bool} (h : Without gone r r')
    (hr : Sound size ws r.roll) :
    r'.stage = if ParticipantLeaves r r' then .idle else r.stage := by
  have hleaves : r.participants.any gone = true ↔ ParticipantLeaves r r' := by
    rw [List.any_eq_true]
    constructor
    -- a participant is registered, and is not any more if it is gone
    · rintro ⟨a, ha, hgone⟩
      have hmember := hasAddress_of_participant hr ha
      obtain ⟨e, he, rfl⟩ := List.mem_map.mp (Membership.hasAddress_iff.mp hmember)
      refine ⟨e, he, ?_, ha⟩
      simp [h.members, hgone]
    · rintro ⟨e, he, hleft, ha⟩
      refine ⟨e.address, ha, ?_⟩
      simpa [h.members, he] using hleft
  rw [h.stage]
  simp only [hleaves]

/-! ### One watch -/

theorem stage_abandonOverlay (r : Registry) (a : PeerAddress) (reason : String) :
    (r.abandonOverlay a reason).stage = if a ∈ r.participants then .idle else r.stage := by
  unfold abandonOverlay participants
  cases r.overlay with
  | none => rfl
  | some o =>
    dsimp only
    split
    · rfl
    · rfl

/-- Whether acting on a watch takes away the member at an address. -/
def loses (r : Registry) (w : Watch) (a : PeerAddress) : Bool :=
  a == w.address && r.cache.get? a == some w.link

theorem loses_iff : r.loses w a = true ↔ w.address = a ∧ r.cache.get? a = some w.link := by
  rw [loses, Bool.and_eq_true, beq_iff_eq, beq_iff_eq, eq_comm]

/-- A registration that is lost ends the overlay if its node took part in it. -/
theorem stage_connectionLost (hcurrent : r.cache.get? w.address = some w.link) :
    (r.connectionLost w).stage = if w.address ∈ r.participants then .idle else r.stage := by
  rw [connectionLost, if_pos hcurrent]
  dsimp only
  rw [stage_abandonOverlay, participants_of_roll (roll_notice _ _), stage_notice]
  rfl

/-- And its node is taken out of the membership and the cache. -/
theorem lists_connectionLost (h : Sound size ws r.roll)
    (hcurrent : r.cache.get? w.address = some w.link) :
    (r.connectionLost w).membership.members =
      r.membership.members.filter (·.address != w.address) ∧
    (r.connectionLost w).cache = r.cache.erase w.address := by
  obtain ⟨id, he⟩ := h.exists_member hcurrent
  have hremove : r.membership.removeAddress w.address = _ := h.members.removeAddress_of_mem he
  rw [connectionLost, if_pos hcurrent, hremove]
  dsimp only
  obtain ⟨o, hroll, -⟩ := roll_abandonOverlay _ w.address "disconnected"
  rw [roll_notice] at hroll
  have hmembership := congrArg (Membership.members ∘ Roll.membership) hroll
  exact ⟨hmembership.trans (h.members.erase_eq he), congrArg Roll.cache hroll⟩

/-- **Acting on a watch** takes its address away if the address is still registered over the
connection, and does nothing otherwise. -/
theorem without_connectionLost (h : Sound size ws r.roll) (w : Watch) :
    Without (r.loses w) r (r.connectionLost w) := by
  by_cases hcurrent : r.cache.get? w.address = some w.link
  · have hlost : ∀ a, r.loses w a = (a == w.address) := fun a => by
      rw [Bool.eq_iff_iff, loses_iff, beq_iff_eq]
      exact ⟨fun hw => hw.1.symm, fun ha => ⟨ha.symm, ha ▸ hcurrent⟩⟩
    obtain ⟨hmembers, hcache⟩ := lists_connectionLost h hcurrent
    refine ⟨?_, fun a => ?_, ?_⟩
    · rw [hmembers]
      exact List.filter_congr fun e _ => by rw [hlost, bne]
    · rw [hcache, hlost]
      by_cases ha : a = w.address
      · rw [ha, if_pos (beq_self_eq_true _)]
        exact Cache.get?_erase_self _ _
      · rw [if_neg (by simpa using ha)]
        exact Cache.get?_erase_of_ne _ _ ha
    · have hany : r.participants.any (r.loses w) = decide (w.address ∈ r.participants) := by
        rw [Bool.eq_iff_iff, List.any_eq_true, decide_eq_true_iff]
        simp [hlost]
      rw [stage_connectionLost hcurrent, hany]
      simp only [decide_eq_true_iff]
  · have hstale : r.connectionLost w = r := if_neg hcurrent
    rw [hstale]
    refine (Without.refl r).congr fun a => ?_
    rw [eq_comm, Bool.eq_false_iff]
    intro hw
    obtain ⟨rfl, hcached⟩ := loses_iff.mp hw
    exact hcurrent hcached

/-! ### Many watches -/

/-- Where the first watch is not acted upon, the others find what they would have found. -/
theorem Without.cons (h : Without (r.loses w) r r')
    (h' : Without (fun a => ws.any fun v => r'.loses v a) r' r'') :
    Without (fun a => (w :: ws).any fun v => r.loses v a) r r'' := by
  refine (h.trans h').congr fun a => ?_
  rw [List.any_cons]
  cases hlost : r.loses w a with
  | true => rfl
  | false =>
    have hcached : r'.cache.get? a = r.cache.get? a := by
      rw [h.cache, hlost]
      rfl
    simp only [loses, hcached, Bool.false_or]

theorem without_loseAll (h : Sound size ws r.roll) :
    Without (fun a => ws.any fun w => r.loses w a) r (loseAll ws r) := by
  induction ws generalizing r with
  | nil => exact .refl r
  | cons w ws ih => exact (without_connectionLost h w).cons (ih h.connectionLost)

/-- Acting on all watches of some connections takes away what is cached over them. -/
theorem Sound.lost_iff {p : LinkId → Prop} (h : Sound size [] r.roll)
    (hws : ∀ w, w ∈ ws ↔ w ∈ r.watches ∧ p w.link) (a : PeerAddress) :
    (ws.any fun w => r.loses w a) = true ↔ ∃ c, r.cache.get? a = some c ∧ p c := by
  rw [List.any_eq_true]
  constructor
  · rintro ⟨w, hw, hlost⟩
    exact ⟨w.link, (loses_iff.mp hlost).2, ((hws w).mp hw).2⟩
  -- what is cached is watched, so there is a watch to act upon
  · rintro ⟨c, hcached, hc⟩
    have hwatched : ⟨c, a⟩ ∈ r.watches := h.watched a c hcached
    exact ⟨⟨c, a⟩, (hws _).mpr ⟨hwatched, hc⟩, loses_iff.mpr ⟨rfl, hcached⟩⟩

/-- **Noticing every closing** takes away whose connection has closed. -/
theorem without_noticeClosed (h : Sound size [] r.roll) :
    Without (fun a => (r.cache.get? a).any r.links.closed.contains) r r.noticeClosed := by
  have hall := without_loseAll h.overdue
  have hwithout : Without (fun a => r.overdue.any fun w => r.loses w a) r r.noticeClosed :=
    ⟨hall.members, hall.cache, hall.stage⟩
  refine hwithout.congr fun a => ?_
  rw [Bool.eq_iff_iff, Option.any_eq_true, h.lost_iff (p := (· ∈ r.links.closed))
    fun _ => mem_overdue]
  simp only [List.contains_iff_mem]

/-- Acts on each of `ws`, one after the other, as its closing is noticed. -/
def noticeEach : List Watch → Registry → Registry
  | [], r => r
  | w :: ws, r => noticeEach ws ({ r with watches := r.watches.erase w }.connectionLost w)

/-- **Acting on many watches** takes away the addresses that acting on one of them would. -/
theorem without_noticeEach (h : Sound size [] r.roll) (ws : List Watch) :
    Without (fun a => ws.any fun w => r.loses w a) r (noticeEach ws r) := by
  induction ws generalizing r with
  | nil => exact .refl r
  | cons w ws ih =>
    have hfirst := without_connectionLost (h.unwatch w) w
    exact Without.cons ⟨hfirst.members, hfirst.cache, hfirst.stage⟩
      (ih (h.unwatch w).connectionLost)

theorem watches_noticeEach (ws : List Watch) (r : Registry) :
    (noticeEach ws r).watches = r.watches.diff ws := by
  induction ws generalizing r with
  | nil => rfl
  | cons w ws ih => rw [noticeEach, ih, (roll_connectionLost _ w).2, List.diff_cons]

/-! ### Registrations -/

/-- The registration that an action brings in, if it is accepted. -/
def admitted? (r : Registry) : Action → Option Watch
  | .received link (.nodeRegisters address) =>
    (r.links.end? link).bind fun peer =>
      if (r.membership.register address peer.ip r.draws).isOk then some ⟨link, address⟩ else none
  | _ => none

/-- The registrations that the actions of a run bring in and that are accepted, oldest first. -/
def registrations (r : Registry) : List Action → List Watch
  | [] => []
  | a :: as => (r.admitted? a).toList ++ (r.act a).registrations as

/-- The connection that an address was last registered over. -/
def lastRegistered (regs : List Watch) (a : PeerAddress) : Option LinkId :=
  (regs.reverse.find? (·.address == a)).map Watch.link

/-- What may happen to a registry, with the registrations that it has accepted so far. -/
inductive Recorded (config : RegistryConfig) (draws : Draws) : List Watch → Registry → Prop where
  | initial : Recorded config draws [] (initial config draws)
  | act {regs : List Watch} {r : Registry} (h : Recorded config draws regs r) (a : Action) :
      Recorded config draws (regs ++ (r.admitted? a).toList) (r.act a)
  | notice {regs : List Watch} {r : Registry} {w : Watch} (h : Recorded config draws regs r)
      (hw : w ∈ r.watches) (hclosed : w.link ∈ r.links.closed) :
      Recorded config draws regs ({ r with watches := r.watches.erase w }.connectionLost w)

variable {config : RegistryConfig} {draws : Draws} {regs : List Watch}

theorem Recorded.occurs (h : Recorded config draws regs r) : Occurs config draws r := by
  induction h with
  | initial => exact .initial
  | act h a ih => exact ih.act a
  | notice h hw hclosed ih => exact ih.notice hw hclosed

/-- Whatever occurs, some registrations have led to it. -/
theorem Occurs.exists_recorded (h : Occurs config draws r) :
    ∃ regs, Recorded config draws regs r := by
  induction h with
  | initial => exact ⟨[], .initial⟩
  | act h a ih =>
    obtain ⟨regs, hrecorded⟩ := ih
    exact ⟨_, hrecorded.act a⟩
  | notice h hw hclosed ih =>
    obtain ⟨regs, hrecorded⟩ := ih
    exact ⟨regs, hrecorded.notice hw hclosed⟩

theorem Recorded.run (h : Recorded config draws regs r) (as : List Action) :
    Recorded config draws (regs ++ r.registrations as) (r.run as) := by
  induction as generalizing r regs with
  | nil => rwa [registrations, List.append_nil]
  | cons a as ih =>
    rw [registrations, ← List.append_assoc]
    exact ih (h.act a)

/-- Closings may be noticed for many registrations, one after the other. -/
theorem Recorded.noticeEach (h : Recorded config draws regs r)
    (hws : ws.Subperm r.watches) (hclosed : ∀ w ∈ ws, w.link ∈ r.links.closed) :
    Recorded config draws regs (noticeEach ws r) := by
  induction ws generalizing r with
  | nil => exact h
  | cons w ws ih =>
    have hw : w ∈ r.watches := hws.subset List.mem_cons_self
    obtain ⟨hlinks, hwatches⟩ := roll_connectionLost { r with watches := r.watches.erase w } w
    refine ih (h.notice hw (hclosed w List.mem_cons_self)) ?_ fun v hv => ?_
    · rw [hwatches, ← List.erase_cons_head w ws]
      exact hws.erase w
    · rw [hlinks]
      exact hclosed v (.tail _ hv)

/-! ### What is cached -/

/-- A registration that is accepted is cached. -/
theorem cache_of_admitted {act : Action} (h : r.admitted? act = some w) :
    (r.act act).cache = r.cache.put w.address w.link := by
  unfold admitted? at h
  split at h
  · next link address =>
    obtain ⟨peer, hpeer, h⟩ := Option.bind_eq_some_iff.mp h
    split at h
    · next hok =>
      cases h
      cases hregister : r.membership.register address peer.ip r.draws with
      | error refusal => rw [hregister] at hok; cases hok
      | ok x =>
        obtain ⟨id, membership, draws⟩ := x
        change (r.receive link _).roll.cache = _
        rw [receive, hpeer]
        change (r.register link peer address).roll.cache = _
        simp only [register, hregister]
        rw [roll_answerRegistration, roll_notice]
        rfl
    · cases h
  · cases h

theorem get?_of_roll {k : LinkId} (h : r'.roll = r.roll) (hk : r'.cache.get? a = some k) :
    r.cache.get? a = some k := by
  have hcache : r'.cache = r.cache := congrArg Roll.cache h
  rwa [hcache] at hk

theorem get?_of_deregister {link k : LinkId} {peer : Peer} {b : PeerAddress} {id : NodeId}
    (hk : (r.deregister link peer b id).cache.get? a = some k) : r.cache.get? a = some k := by
  change (r.deregister link peer b id).roll.cache.get? a = some k at hk
  unfold deregister at hk
  split at hk
  · next membership _ =>
    rw [roll_answerDeregistration, roll_notice, roll_log] at hk
    obtain ⟨o, hroll, -⟩ := roll_abandonOverlay
      { r with membership := membership, cache := r.cache.erase b } b "left the overlay"
    rw [hroll] at hk
    exact (Cache.get?_of_erase hk).2
  · rw [roll_answerDeregistration, roll_notice, roll_log] at hk
    exact hk

/-- Nothing else is ever put into the cache. -/
theorem get?_of_not_admitted {act : Action} {k : LinkId} (h : Sound size [] r.roll)
    (hnone : r.admitted? act = none) (hk : (r.act act).cache.get? a = some k) :
    r.cache.get? a = some k := by
  cases act with
  | connected peer | closed link => exact hk
  | noticed =>
    rw [act, (without_noticeClosed h).cache] at hk
    split at hk
    · cases hk
    · exact hk
  | setup size =>
    rcases roll_setup r size with hroll | ⟨o, hroll, -⟩
    · exact get?_of_roll hroll hk
    · have hcache : (r.setup size).1.cache = r.cache := congrArg Roll.cache hroll
      rwa [act, hcache] at hk
  | start count => exact get?_of_roll (roll_start r count) hk
  | elapsed ms => exact get?_of_roll (roll_elapse r ms) hk
  | received link m =>
    rw [act, receive] at hk
    cases hpeer : r.links.end? link with
    | none =>
      rw [hpeer] at hk
      exact hk
    | some peer =>
      rw [hpeer] at hk
      cases m with
      | nodeRegisters b =>
        cases hregister : r.membership.register b peer.ip r.draws with
        | ok x =>
          rw [admitted?, hpeer, Option.bind_some, hregister] at hnone
          cases hnone
        | error refusal =>
          change (r.register link peer b).roll.cache.get? a = some k at hk
          simp only [register, hregister] at hk
          rw [roll_answerRegistration, roll_notice] at hk
          exact hk
      | nodeDeregisters b id => exact get?_of_deregister hk
      | overlaySetupStatus status info =>
        exact get?_of_roll (roll_setupReported r peer status info) hk
      | taskFinished b id => exact get?_of_roll (roll_taskFinished r b id) hk
      | trafficSummaryReport s => exact get?_of_roll (roll_summaryReported r s) hk
      | _ => exact hk

theorem lastRegistered_concat (regs : List Watch) (w : Watch) (a : PeerAddress) :
    lastRegistered (regs ++ [w]) a =
      if w.address = a then some w.link else lastRegistered regs a := by
  rw [lastRegistered, lastRegistered, List.reverse_concat]
  by_cases ha : w.address = a
  · rw [if_pos ha, List.find?_cons_of_pos (by simpa using ha)]
    rfl
  · rw [if_neg ha, List.find?_cons_of_neg (by simpa using ha)]

/-- **What is cached under an address is the connection that it was last registered over.** -/
theorem Recorded.cached {k : LinkId} (h : Recorded config draws regs r)
    (hk : r.cache.get? a = some k) : lastRegistered regs a = some k := by
  induction h with
  | initial => cases hk
  | @act regs r h act ih =>
    cases hadmitted : r.admitted? act with
    | none =>
      rw [Option.toList_none, List.append_nil]
      exact ih (get?_of_not_admitted h.occurs.sound hadmitted hk)
    | some w =>
      rw [Option.toList_some, lastRegistered_concat]
      rw [cache_of_admitted hadmitted] at hk
      by_cases ha : w.address = a
      · rw [← ha, Cache.get?_put_self] at hk
        rw [if_pos ha, hk]
      · rw [Cache.get?_put_of_ne _ _ _ (Ne.symm ha)] at hk
        rw [if_neg ha]
        exact ih hk
  | @notice regs r w h hw hclosed ih =>
    have hwithout := without_connectionLost (h.occurs.sound.unwatch w) w
    rw [hwithout.cache] at hk
    split at hk
    · cases hk
    · exact ih hk

/-! ### A connection that closes -/

/-- The watches on other connections are left. -/
theorem perm_watches_noticeEach {c : LinkId} (hws : ws.Perm (r.watches.filter (·.link == c))) :
    (noticeEach ws r).watches.Perm (r.watches.filter (·.link != c)) := by
  have hsub : ws.Subperm r.watches := hws.subperm.trans List.filter_sublist.subperm
  have hall : (ws ++ r.watches.diff ws).Perm r.watches :=
    List.subperm_append_diff_self_of_count_le (List.subperm_ext_iff.mp hsub)
  have hsplit : (ws ++ r.watches.filter (·.link != c)).Perm r.watches :=
    (hws.append_right _).trans (List.filter_append_perm (·.link == c) r.watches)
  rw [watches_noticeEach]
  exact (List.perm_append_left_iff ws).mp (hall.trans hsplit.symm)

/-- **A connection that is lost takes its own registrations with it.**  Whatever has happened to a
registry, say that a connection has closed, and that this is noticed for all the registrations on
it, in any order.  Then the members that it takes away are those whose cached connection it is; this
is the connection that a member was last registered over.  All others stay as they are, in the
membership and in the cache, those included that were registered over the lost connection once and
have left or come back over another since.  The overlay is dropped if and only if one of those that
are taken away took part in it. -/
theorem closing_noticed {c : LinkId} (h : Recorded config draws regs r)
    (hclosed : c ∈ r.links.closed) (hws : ws.Perm (r.watches.filter (·.link == c)))
    (hr' : r' = noticeEach ws r) :
    Recorded config draws regs r' ∧ r'.watches.Perm (r.watches.filter (·.link != c)) ∧
    (∀ e ∈ r.membership.members, r.cache.get? e.address = lastRegistered regs e.address) ∧
    r'.membership.members =
      r.membership.members.filter (fun e => r.cache.get? e.address != some c) ∧
    (∀ a, r'.cache.get? a = if r.cache.get? a = some c then none else r.cache.get? a) ∧
    r'.stage = if ParticipantLeaves r r' then .idle else r.stage := by
  have hsound := h.occurs.sound
  have hwithout := without_noticeEach hsound ws
  rw [← hr'] at hwithout
  have hmem : ∀ w, w ∈ ws ↔ w ∈ r.watches ∧ w.link = c := fun w => by
    rw [hws.mem_iff, List.mem_filter, beq_iff_eq]
  have hlost : ∀ a, (ws.any fun w => r.loses w a) = true ↔ r.cache.get? a = some c := fun a => by
    rw [hsound.lost_iff (p := (· = c)) hmem, exists_eq_right]
  have hmembers : r'.membership.members =
      r.membership.members.filter (fun e => r.cache.get? e.address != some c) := by
    rw [hwithout.members]
    refine List.filter_congr fun e _ => ?_
    rw [Bool.eq_iff_iff, Bool.not_eq_true', bne_iff_ne, ← Bool.not_eq_true]
    exact not_congr (hlost e.address)
  refine ⟨?_, ?_, fun e he => ?_, hmembers, fun a => ?_, ?_⟩
  · rw [hr']
    refine h.noticeEach (hws.subperm.trans List.filter_sublist.subperm) fun w hw => ?_
    rwa [((hmem w).mp hw).2]
  · rw [hr']
    exact perm_watches_noticeEach hws
  · have hkey := hsound.cached.mem_iff.mpr (List.mem_map_of_mem he)
    obtain ⟨k, hk⟩ := Option.isSome_iff_exists.mp ((Cache.get?_isSome_iff _ _).mpr hkey)
    exact hk.trans (h.cached hk).symm
  · rw [hwithout.cache]
    simp only [hlost]
  · exact hwithout.stage_eq hsound

/-- One of two nodes that were registered over the connection has come back over another, and stays.
The overlay was laid over both, and is dropped. -/
theorem closing_noticed_shared :
    (noticeEach [⟨0, ⟨"127.0.0.1", 7002⟩⟩, ⟨0, ⟨"127.0.0.1", 7001⟩⟩]
      ((initial {} (.ofList [21, 34, 55])).run sharedLink)).membership.members =
        [⟨(55 : NodeId), ⟨"127.0.0.1", 7001⟩⟩] ∧
    (noticeEach [⟨0, ⟨"127.0.0.1", 7002⟩⟩, ⟨0, ⟨"127.0.0.1", 7001⟩⟩]
      ((initial {} (.ofList [21, 34, 55])).run sharedLink)).stage = .idle := by
  have hrecorded := (Recorded.initial : Recorded {} (.ofList [21, 34, 55]) _ _).run sharedLink
  have hws : List.Perm [⟨0, ⟨"127.0.0.1", 7002⟩⟩, ⟨0, ⟨"127.0.0.1", 7001⟩⟩]
      (((initial {} (.ofList [21, 34, 55])).run sharedLink).watches.filter (·.link == 0)) := by
    decide
  obtain ⟨-, -, -, hmembers, -, hstage⟩ := closing_noticed hrecorded (by decide) hws rfl
  exact ⟨hmembers.trans (by decide), hstage.trans (if_pos (by decide))⟩

end Registry

end RingOverlay
