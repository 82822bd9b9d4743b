import RingOverlay.Proofs.Finger.Tables
import RingOverlay.Proofs.Link.Cache
import RingOverlay.Proofs.Registry.Members
import RingOverlay.Proofs.Registry.Quiet

/-!
# Registry — membership, cache and overlay agree

Three structures say who is there: the membership, the cache of connections and the overlay.  They
are kept apart, and every handler updates them one by one.  The *roll* of a registry is all of it
that bears on who is there, and `Sound size ws s` is what holds of the roll at every moment: the
members are in order, the cache has an entry for exactly their addresses, every cached connection
comes from its member's host and is watched, and what the overlay was laid over is still registered.
Watches in `ws` are those that are about to be acted upon.

A cached connection may have closed.  Once every closing has been noticed none has, and the registry
is consistent.

* `Sound.connectionLost`: noticing one closing keeps the roll sound, without the watch.
* `consistent_once_noticed`: **a registry that has noticed all closings is consistent.**
-/

namespace RingOverlay

/-- Who is there, as a registry has it. -/
structure Roll where
  membership : Membership
  cache : Cache LinkId
  links : Links Peer
  watches : List Watch
  overlay : Option Overlay

/-- The overlay was laid over these nodes: their identifiers label its tables, and their addresses
are its participants. -/
structure Overlay.Over (o : Overlay) (nodes : List Entry) : Prop where
  ids : o.tables.map Prod.fst = nodes.map Entry.id
  addresses : o.participants = nodes.map Entry.address

namespace Registry

/-- The roll of a registry. -/
def roll (r : Registry) : Roll := ⟨r.membership, r.cache, r.links, r.watches, r.overlay⟩

/-- The roll of a ring of `size` identifiers is sound, provided that the watches in `ws` are acted
upon next. -/
structure Sound (size : Nat) (ws : List Watch) (s : Roll) : Prop where
  capacity : s.membership.capacity = size
  members : s.membership.InOrder
  cached : s.cache.keys.Perm (s.membership.members.map Entry.address)
  observed : ∀ a link, s.cache.get? a = some link →
    ∃ peer, s.links.end? link = some peer ∧ a.matchesHost peer.ip = true
  watched : ∀ a link, s.cache.get? a = some link → ⟨link, a⟩ ∈ ws ++ s.watches
  laidOut : ∀ o, s.overlay = some o → ∃ nodes, o.Over nodes ∧ nodes ⊆ s.membership.members ∧
    nodes.Pairwise fun x y => x.id < y.id

variable {r r' : Registry} {size : Nat} {ws : List Watch} {s : Roll} {a : PeerAddress} {id : NodeId}

theorem sound_initial (config : RegistryConfig) (draws : Draws) :
    Sound config.ringSize [] (initial config draws).roll where
  capacity := rfl
  members := Membership.inOrder_empty _
  cached := .refl _
  observed _ _ h := nomatch h
  watched _ _ h := nomatch h
  laidOut _ h := nomatch h

/-! ### What leaves the roll alone -/

theorem roll_congr (h : r'.quiet = r.quiet) : r'.roll = r.roll :=
  congr_of_quiet roll (fun _ => rfl) h

@[simp] theorem roll_log (r : Registry) (e : RegistryEvent) : (r.log e).roll = r.roll := rfl

@[simp] theorem roll_notice (r : Registry) (line : String) : (r.notice line).roll = r.roll :=
  roll_congr (quiet_notice r line)

@[simp] theorem roll_setPhase (r : Registry) (p : Phase) : (r.setPhase p).roll = r.roll := rfl

@[simp] theorem roll_answerRegistration (r : Registry) (link : LinkId) (status : Int32)
    (info : String) : (r.answerRegistration link status info).roll = r.roll :=
  roll_congr (quiet_answerRegistration r link status info)

@[simp] theorem roll_answerDeregistration (r : Registry) (link : LinkId) (status : Int32)
    (info : String) : (r.answerDeregistration link status info).roll = r.roll :=
  roll_congr (quiet_answerDeregistration r link status info)

@[simp] theorem roll_broadcast (r : Registry) (m : Message) : (r.broadcast m).1.roll = r.roll :=
  roll_congr (quiet_broadcast r m)

theorem roll_setupReported (r : Registry) (peer : Peer) (status : Int32) (info : String) :
    (r.setupReported peer status info).roll = r.roll := by
  unfold setupReported
  split
  · rfl
  · split
    · exact roll_notice _ _
    · dsimp only
      split
      · exact roll_notice _ _
      · rfl

theorem roll_taskFinished (r : Registry) (address : PeerAddress) (id : NodeId) :
    (r.taskFinished address id).roll = r.roll := by
  unfold taskFinished
  split
  · rfl
  · dsimp only
    split <;> rfl

theorem roll_summaryReported (r : Registry) (summary : Summary) :
    (r.summaryReported summary).roll = r.roll := by
  unfold summaryReported
  split
  · rfl
  · dsimp only
    split
    · rfl
    · exact roll_notice _ _

theorem roll_requestSummaries (r : Registry) : r.requestSummaries.roll = r.roll := by
  have hsent := roll_broadcast { r with collector := .empty } .trafficSummaryRequest
  unfold requestSummaries
  split
  · rfl
  · dsimp only
    split
    · exact hsent
    · exact hsent

theorem roll_fireEach (n : Nat) (r : Registry) : (fireEach n r).roll = r.roll := by
  induction n generalizing r with
  | zero => rfl
  | succ n ih => exact (ih _).trans (roll_requestSummaries r)

theorem roll_elapse (r : Registry) (ms : Nat) : (r.elapse ms).roll = r.roll := roll_fireEach _ _

theorem roll_start (r : Registry) (count : UInt32) : (r.start count).1.roll = r.roll := by
  unfold start
  split
  · rfl
  · split
    · rfl
    · rfl
    · dsimp only
      split
      · exact roll_broadcast r _
      · exact roll_broadcast r _
    · rfl

/-! ### Joining -/

/-- A member that is new to the roll, over a connection from its host. -/
theorem Sound.join {link : LinkId} {peer : Peer} (h : Sound size ws s)
    (hpeer : s.links.end? link = some peer) (hadmits : s.membership.Admits a peer.ip)
    (hfree : s.membership.isFree id = true) (hlt : id.val < s.membership.capacity) :
    Sound size ws { s with
      membership := { s.membership with members := Membership.insert ⟨id, a⟩ s.membership.members }
      cache := s.cache.put a link
      watches := s.watches ++ [⟨link, a⟩] } := by
  have hfresh : a ∉ s.cache.keys := fun ha => by
    have htaken := Membership.hasAddress_iff.mpr (h.cached.mem_iff.mp ha)
    exact Bool.false_ne_true (hadmits.new.symm.trans htaken)
  have hperm := Membership.insert_perm ⟨id, a⟩ s.membership.members
  refine ⟨h.capacity, h.members.insert hfree hlt hadmits.new, ?_, fun b l hb => ?_,
    fun b l hb => ?_, fun o ho => ?_⟩
  · rw [Cache.keys_put, ← Cache.keys_erase, Cache.erase_eq_self _ _ hfresh]
    exact (List.perm_append_singleton _ _).trans
      ((h.cached.cons a).trans (hperm.map Entry.address).symm)
  · by_cases hba : b = a
    · obtain rfl := hba
      rw [Cache.get?_put_self] at hb
      cases hb
      exact ⟨peer, hpeer, hadmits.host⟩
    · rw [Cache.get?_put_of_ne _ _ _ hba] at hb
      exact h.observed b l hb
  · rw [← List.append_assoc]
    by_cases hba : b = a
    · obtain rfl := hba
      rw [Cache.get?_put_self] at hb
      cases hb
      exact List.mem_append_right _ (List.mem_singleton_self _)
    · rw [Cache.get?_put_of_ne _ _ _ hba] at hb
      exact List.mem_append_left _ (h.watched b l hb)
  · obtain ⟨nodes, hover, hsub, hascend⟩ := h.laidOut o ho
    exact ⟨nodes, hover, fun e he => Membership.mem_insert.mpr (.inr (hsub he)), hascend⟩

theorem Sound.register {link : LinkId} {peer : Peer} (h : Sound size ws r.roll)
    (hpeer : r.links.end? link = some peer) (a : PeerAddress) :
    Sound size ws (r.register link peer a).roll := by
  unfold Registry.register
  split
  · next id membership draws hok =>
    obtain ⟨hadmits, hfree, hlt, rfl⟩ := Membership.register_eq_ok hok
    rw [roll_answerRegistration, roll_notice, roll_log]
    exact h.join hpeer hadmits hfree hlt
  · rw [roll_answerRegistration, roll_notice, roll_log]
    exact h

/-! ### Leaving -/

/-- A member that has left, together with the overlay if it was laid over it.  Its watches are not
needed any more. -/
theorem Sound.leave {ws' : List Watch} (h : Sound size ws s) (he : ⟨id, a⟩ ∈ s.membership.members)
    (hws : ∀ w ∈ ws, w.address ≠ a → w ∈ ws') {o : Option Overlay}
    (ho : o = none ∨ o = s.overlay ∧ ∀ o', s.overlay = some o' → a ∉ o'.participants) :
    Sound size ws' { s with
      membership := { s.membership with members := Membership.erase id s.membership.members }
      cache := s.cache.erase a
      overlay := o } := by
  refine ⟨h.capacity, h.members.erase id, ?_, fun b l hb => ?_,
    fun b l hb => ?_, fun o' ho' => ?_⟩
  · rw [Cache.keys_erase, h.members.addresses_erase he]
    exact h.cached.filter _
  · exact h.observed b l (Cache.get?_of_erase hb).2
  · obtain ⟨hba, hb⟩ := Cache.get?_of_erase hb
    refine List.mem_append.mpr ((List.mem_append.mp (h.watched b l hb)).imp_left fun hw => ?_)
    exact hws _ hw hba
  · rcases ho with rfl | ⟨rfl, hout⟩
    · cases ho'
    · obtain ⟨nodes, hover, hsub, hascend⟩ := h.laidOut o' ho'
      refine ⟨nodes, hover, fun e hmem => Membership.mem_erase.mpr ⟨hsub hmem, fun hid => ?_⟩,
        hascend⟩
      -- the one that left was not among those the overlay was laid over
      obtain rfl := h.members.eq_of_id (hsub hmem) he hid
      exact hout o' ho' (hover.addresses ▸ List.mem_map_of_mem hmem)

theorem roll_abandonOverlay (r : Registry) (a : PeerAddress) (reason : String) :
    ∃ o, (r.abandonOverlay a reason).roll = { r.roll with overlay := o } ∧
      (o = none ∨ o = r.overlay ∧ ∀ o', r.overlay = some o' → a ∉ o'.participants) := by
  unfold abandonOverlay
  split
  · next hnone => exact ⟨none, by rw [roll, hnone], .inl rfl⟩
  · next o hsome =>
    split
    · refine ⟨none, ?_, .inl rfl⟩
      have hroll := roll_notice (r.log (.overlayAbandoned a r.phase reason))
        s!"The node at {a.text} {reason}; run setup-overlay again"
      rw [roll_setPhase]
      exact congrArg (fun s : Roll => { s with overlay := none }) hroll
    · next hout =>
      refine ⟨r.overlay, rfl, .inr ⟨rfl, fun o' ho' => ?_⟩⟩
      exact Option.some.inj (hsome.symm.trans ho') ▸ hout

/-- Whoever leaves is dropped from the roll, in whatever words that is logged. -/
theorem Sound.drop {ws' : List Watch} (h : Sound size ws s) (he : ⟨id, a⟩ ∈ s.membership.members)
    (hws : ∀ w ∈ ws, w.address ≠ a → w ∈ ws')
    (hroll : r.roll = { s with
      membership := { s.membership with members := Membership.erase id s.membership.members }
      cache := s.cache.erase a }) (reason : String) :
    Sound size ws' (r.abandonOverlay a reason).roll := by
  obtain ⟨o, hleft, ho⟩ := roll_abandonOverlay r a reason
  rw [hleft, hroll]
  have hoverlay : r.overlay = s.overlay := congrArg Roll.overlay hroll
  exact h.leave he hws (hoverlay ▸ ho)

theorem Sound.deregister (h : Sound size ws r.roll) (link : LinkId) (peer : Peer) (a : PeerAddress)
    (id : NodeId) : Sound size ws (r.deregister link peer a id).roll := by
  unfold Registry.deregister
  split
  · next b membership hok =>
    obtain ⟨he, rfl⟩ := Membership.deregister_eq_ok hok
    rw [roll_answerDeregistration, roll_notice, roll_log]
    exact h.drop he (fun _ hw _ => hw) rfl _
  · rw [roll_answerDeregistration, roll_notice, roll_log]
    exact h

/-- Whoever has a connection in the cache is a member. -/
theorem Sound.exists_member {link : LinkId} (h : Sound size ws s)
    (ha : s.cache.get? a = some link) : ∃ id, ⟨id, a⟩ ∈ s.membership.members := by
  have hkey := h.cached.mem_iff.mp (Cache.mem_keys_of_get? ha)
  obtain ⟨⟨id, b⟩, he, rfl⟩ := List.mem_map.mp hkey
  exact ⟨id, he⟩

/-- **Noticing a closing.**  A watch that has been acted upon is not needed any more. -/
theorem Sound.connectionLost {w : Watch} (h : Sound size (w :: ws) r.roll) :
    Sound size ws (r.connectionLost w).roll := by
  unfold Registry.connectionLost
  split
  · next hcurrent =>
    obtain ⟨id, he⟩ := h.exists_member hcurrent
    have hremove : r.membership.removeAddress w.address = _ := h.members.removeAddress_of_mem he
    rw [hremove]
    refine h.drop he (fun v hv hne => ?_) (roll_notice _ _) _
    exact (List.mem_cons.mp hv).resolve_left fun hvw => hne (congrArg Watch.address hvw)
  -- the node has left since, or is registered on another connection by now
  · next hstale =>
    refine ⟨h.capacity, h.members, h.cached, h.observed, fun a link ha => ?_, h.laidOut⟩
    refine (List.mem_cons.mp (h.watched a link ha)).resolve_left ?_
    rintro rfl
    exact hstale ha

/-! ### Every action -/

theorem Sound.loseAll (h : Sound size ws r.roll) : Sound size [] (loseAll ws r).roll := by
  induction ws generalizing r with
  | nil => exact h
  | cons w ws ih => exact ih h.connectionLost

theorem mem_overdue {w : Watch} : w ∈ r.overdue ↔ w ∈ r.watches ∧ w.link ∈ r.links.closed := by
  simp [overdue, and_comm]

/-- Watches that are overdue may be taken off the roll if they are acted upon next. -/
theorem Sound.overdue (h : Sound size [] r.roll) : Sound size r.overdue
    { r with watches := r.watches.filter fun w => !r.links.closed.contains w.link }.roll := by
  refine ⟨h.capacity, h.members, h.cached, h.observed, fun a link ha => ?_, h.laidOut⟩
  have hw : ⟨link, a⟩ ∈ r.watches := h.watched a link ha
  by_cases hclosed : link ∈ r.links.closed
  · exact List.mem_append_left _ (mem_overdue.mpr ⟨hw, hclosed⟩)
  · refine List.mem_append_right _ (List.mem_filter.mpr ⟨hw, ?_⟩)
    simp [hclosed]

theorem Sound.noticeClosed (h : Sound size [] r.roll) : Sound size [] r.noticeClosed.roll :=
  h.overdue.loseAll

theorem Sound.received (h : Sound size [] r.roll) (link : LinkId) (m : Message) :
    Sound size [] (r.receive link m).roll := by
  unfold receive
  split
  · next peer hpeer =>
    cases m with
    | nodeRegisters address => exact h.register hpeer address
    | nodeDeregisters address id => exact h.deregister link peer address id
    | overlaySetupStatus status info => rwa [handle, roll_setupReported]
    | taskFinished address id => rwa [handle, roll_taskFinished]
    | trafficSummaryReport summary => rwa [handle, roll_summaryReported]
    | _ => exact h
  · exact h

theorem roll_setup_of_ok {tableSize : Option Nat} {tables : List (NodeId × FingerTable)}
    (hrun : r.phase.isRun = false)
    (htables : Layout.tables r.membership.members (tableSize.getD r.config.defaultTableSize) =
      .ok tables) :
    (r.setup tableSize).1.roll =
      { r.roll with overlay := some ⟨tables, r.membership.members.map Entry.address⟩ } := by
  simp only [setup, hrun, htables]
  have hsent := roll_congr
    (quiet_sendManifests r r.membership.ids (r.membership.members.zip tables))
  exact congrArg (fun s : Roll => { s with
    overlay := some ⟨tables, r.membership.members.map Entry.address⟩ }) hsent

/-- A setup that succeeds lays the overlay over the members there are. -/
theorem roll_setup (r : Registry) (tableSize : Option Nat) :
    (r.setup tableSize).1.roll = r.roll ∨
    ∃ o, (r.setup tableSize).1.roll = { r.roll with overlay := some o } ∧
      o.Over r.membership.members := by
  by_cases hrun : r.phase.isRun = true
  · exact .inl (by simp only [setup, hrun, if_true])
  cases htables : Layout.tables r.membership.members
      (tableSize.getD r.config.defaultTableSize) with
  | error e => exact .inl (by simp only [setup, hrun, htables]; rfl)
  | ok tables =>
    exact .inr ⟨_, roll_setup_of_ok (Bool.not_eq_true _ ▸ hrun) htables,
      Layout.tables_ids htables, rfl⟩

theorem Sound.setup (h : Sound size [] r.roll) (tableSize : Option Nat) :
    Sound size [] (r.setup tableSize).1.roll := by
  rcases roll_setup r tableSize with hsame | ⟨o, hsame, hover⟩
  · rwa [hsame]
  · rw [hsame]
    refine ⟨h.capacity, h.members, h.cached, h.observed, h.watched, fun o' ho' => ?_⟩
    cases ho'
    exact ⟨r.membership.members, hover, List.Subset.refl _, h.members.ascending⟩

/-- **Every action keeps the roll sound.** -/
theorem Sound.act (h : Sound size [] r.roll) (a : Action) : Sound size [] (r.act a).roll := by
  cases a with
  | connected peer =>
    refine ⟨h.capacity, h.members, h.cached, fun a link ha => ?_, h.watched, h.laidOut⟩
    obtain ⟨far, hfar, hhost⟩ := h.observed a link ha
    exact ⟨far, Links.end?_connect_of_some hfar, hhost⟩
  | closed other =>
    refine ⟨h.capacity, h.members, h.cached, fun a link ha => ?_, h.watched, h.laidOut⟩
    rw [show (r.act (.closed other)).roll.links = r.links.close other from rfl, Links.end?_close]
    exact h.observed a link ha
  | noticed => exact h.noticeClosed
  | received link m => exact h.received link m
  | setup tableSize => exact h.setup tableSize
  | start count => rwa [Registry.act, roll_start]
  | elapsed ms => rwa [Registry.act, roll_elapse]

/-! ### Who takes part -/

theorem participants_of_roll (h : r'.roll = r.roll) : r'.participants = r.participants :=
  participants_of_overlay (congrArg Roll.overlay h)

/-- Whoever takes part is one of the members that the overlay was laid over. -/
theorem over_of_participant (h : Sound size ws r.roll) (ha : a ∈ r.participants) :
    ∃ o nodes, r.overlay = some o ∧ o.Over nodes ∧ nodes ⊆ r.membership.members ∧
      nodes.Pairwise (fun x y => x.id < y.id) ∧ a ∈ nodes.map Entry.address := by
  unfold participants at ha
  cases ho : r.overlay with
  | none =>
    rw [ho] at ha
    exact absurd ha List.not_mem_nil
  | some o =>
    obtain ⟨nodes, hover, hsub, hascend⟩ := h.laidOut o ho
    refine ⟨o, nodes, rfl, hover, hsub, hascend, ?_⟩
    rw [ho] at ha
    exact hover.addresses ▸ ha

theorem hasAddress_of_participant (h : Sound size ws r.roll) (ha : a ∈ r.participants) :
    r.membership.hasAddress a = true := by
  obtain ⟨-, nodes, -, -, hsub, -, ha⟩ := over_of_participant h ha
  exact Membership.hasAddress_iff.mpr (List.map_subset _ hsub ha)

/-! ### Closings that have been noticed -/

/-- What may happen to a registry.  Beyond what its runs do, it may notice the closing of a
connection for one of the registrations on it, and for the others later. -/
inductive Occurs (config : RegistryConfig) (draws : Draws) : Registry → Prop where
  | initial : Occurs config draws (initial config draws)
  | act {r : Registry} (h : Occurs config draws r) (a : Action) : Occurs config draws (r.act a)
  | notice {r : Registry} {w : Watch} (h : Occurs config draws r) (hw : w ∈ r.watches)
      (hclosed : w.link ∈ r.links.closed) :
      Occurs config draws ({ r with watches := r.watches.erase w }.connectionLost w)

/-- What runs reach, occurs. -/
theorem Occurs.run {config : RegistryConfig} {draws : Draws} (h : Occurs config draws r)
    (as : List Action) : Occurs config draws (r.run as) := by
  induction as generalizing r with
  | nil => exact h
  | cons a as ih => exact ih (h.act a)

/-- A watch may be taken off the roll if it is acted upon next. -/
theorem Sound.unwatch (h : Sound size [] r.roll) (w : Watch) :
    Sound size [w] { r with watches := r.watches.erase w }.roll := by
  refine ⟨h.capacity, h.members, h.cached, h.observed, fun a link ha => ?_, h.laidOut⟩
  have hwatched : ⟨link, a⟩ ∈ r.watches := h.watched a link ha
  by_cases hsame : ⟨link, a⟩ = w
  · exact hsame ▸ List.mem_cons_self
  · exact .tail _ ((List.mem_erase_of_ne hsame).mpr hwatched)

theorem Occurs.sound {config : RegistryConfig} {draws : Draws} (h : Occurs config draws r) :
    Sound config.ringSize [] r.roll := by
  induction h with
  | initial => exact sound_initial config draws
  | act h a ih => exact ih.act a
  | notice h hw hclosed ih => exact (ih.unwatch _).connectionLost

/-- Noticing a closing makes or breaks no connection, and watches nothing anew. -/
theorem roll_connectionLost (r : Registry) (w : Watch) :
    (r.connectionLost w).links = r.links ∧ (r.connectionLost w).watches = r.watches := by
  unfold connectionLost
  split
  · obtain ⟨o, hroll, -⟩ := roll_abandonOverlay
      ((({ r with
          membership := (r.membership.removeAddress w.address).2
          cache := r.cache.erase w.address }.log
        (.admission .disconnect (r.membership.removeAddress w.address).1 w.address true
          "connection closed without deregistering")).notice
        s!"Lost the connection to the node at {w.address.text}")) w.address "disconnected"
    rw [roll_notice] at hroll
    exact ⟨congrArg Roll.links hroll, congrArg Roll.watches hroll⟩
  · exact ⟨rfl, rfl⟩

theorem roll_loseAll (ws : List Watch) (r : Registry) :
    (loseAll ws r).links = r.links ∧ (loseAll ws r).watches = r.watches := by
  induction ws generalizing r with
  | nil => exact ⟨rfl, rfl⟩
  | cons w ws ih =>
    obtain ⟨hlinks, hwatches⟩ := roll_connectionLost r w
    exact ⟨(ih _).1.trans hlinks, (ih _).2.trans hwatches⟩

/-- Nothing is overdue on connections that are open. -/
theorem overdue_eq_nil_iff : r.overdue = [] ↔ ∀ w ∈ r.watches, w.link ∉ r.links.closed := by
  simp [List.eq_nil_iff_forall_not_mem, mem_overdue]

/-- Once closings are noticed, nothing is overdue. -/
theorem overdue_noticeClosed (r : Registry) : r.noticeClosed.overdue = [] := by
  obtain ⟨hlinks, hwatches⟩ := roll_loseAll r.overdue
    { r with watches := r.watches.filter fun w => !r.links.closed.contains w.link }
  refine overdue_eq_nil_iff.mpr fun w hw => ?_
  rw [noticeClosed, hlinks]
  rw [noticeClosed, hwatches] at hw
  have hopen := (List.mem_filter.mp hw).2
  simpa using hopen

/-- Membership, cache and overlay agree, and every cached connection is open. -/
structure Consistent (size : Nat) (r : Registry) : Prop where
  ids_nodup : r.membership.ids.Nodup
  ids_lt : ∀ id ∈ r.membership.ids, id.val < size
  addresses_nodup : (r.membership.members.map Entry.address).Nodup
  cached : r.cache.keys.Perm (r.membership.members.map Entry.address)
  live : ∀ a link, r.cache.get? a = some link → r.links.isOpen link = true ∧
    ∃ peer, r.links.end? link = some peer ∧ a.matchesHost peer.ip = true
  laidOut : ∀ o, r.overlay = some o → o.tables.length = o.participants.length ∧
    ∀ x ∈ (o.tables.map Prod.fst).zip o.participants, r.membership.get? x.1 = some x.2

theorem Sound.consistent (h : Sound size [] r.roll) (hnoticed : r.overdue = []) :
    Consistent size r where
  ids_nodup := h.members.nodup_ids
  ids_lt id hid := by
    obtain ⟨e, he, rfl⟩ := List.mem_map.mp hid
    exact h.capacity ▸ h.members.below e he
  addresses_nodup := h.members.addresses
  cached := h.cached
  live a link ha := by
    obtain ⟨peer, hpeer, hhost⟩ := h.observed a link ha
    have hmade := Links.end?_isSome_iff.mp (Option.isSome_of_eq_some hpeer)
    have hopen := overdue_eq_nil_iff.mp hnoticed _ (h.watched a link ha)
    exact ⟨Links.isOpen_iff.mpr ⟨hmade, hopen⟩, peer, hpeer, hhost⟩
  laidOut o ho := by
    obtain ⟨nodes, hover, hsub, -⟩ := h.laidOut o ho
    refine ⟨?_, fun x hx => ?_⟩
    · rw [hover.addresses, List.length_map, ← List.length_map Prod.fst, hover.ids, List.length_map]
    · rw [hover.ids, hover.addresses, List.zip_map'] at hx
      obtain ⟨e, he, rfl⟩ := List.mem_map.mp hx
      exact h.members.get?_of_mem (hsub he)

/-- **A registry that has noticed all closings is consistent.**  Whatever has happened to it, there
is nothing that it cannot notice. -/
theorem consistent_once_noticed {config : RegistryConfig} {draws : Draws}
    (h : Occurs config draws r) :
    (r.overdue = [] → Consistent config.ringSize r) ∧
    r.noticeClosed.overdue = [] ∧ Consistent config.ringSize r.noticeClosed :=
  ⟨h.sound.consistent, overdue_noticeClosed r,
    h.sound.noticeClosed.consistent (overdue_noticeClosed r)⟩

/-- Two nodes register over one connection.  The first then leaves and registers again over another,
an overlay is set up, and the shared connection closes. -/
def sharedLink : List Action :=
  [.connected ⟨.loopback, "127.0.0.1:40001"⟩, .connected ⟨.loopback, "127.0.0.1:40002"⟩,
    .received 0 (.nodeRegisters ⟨"127.0.0.1", 7001⟩),
    .received 0 (.nodeRegisters ⟨"127.0.0.1", 7002⟩),
    .received 0 (.nodeDeregisters ⟨"127.0.0.1", 7001⟩ (21 : NodeId)),
    .received 1 (.nodeRegisters ⟨"127.0.0.1", 7001⟩), .setup (some 1), .closed 0]

/-- Two watches are overdue when the shared connection has closed.  Once that is noticed, only the
node that has come back is left, and everything agrees again. -/
theorem consistent_once_noticed_shared :
    ((initial {} (.ofList [21, 34, 55])).run sharedLink).overdue.length = 2 ∧
    ((initial {} (.ofList [21, 34, 55])).run sharedLink).noticeClosed.membership.ids.map Fin.val =
      [55] ∧
    Consistent 128 ((initial {} (.ofList [21, 34, 55])).run sharedLink).noticeClosed := by
  have h : Occurs {} (.ofList [21, 34, 55]) ((initial {} (.ofList [21, 34, 55])).run sharedLink) :=
    Occurs.initial.run sharedLink
  exact ⟨by decide, by decide, (consistent_once_noticed h).2.2⟩

end Registry

end RingOverlay
