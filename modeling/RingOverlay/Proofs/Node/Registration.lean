import Mathlib.Data.List.DropRight
import RingOverlay.Proofs.Link.Cache
import RingOverlay.Proofs.Node.Dials
import RingOverlay.Proofs.Node.Traffic

/-!
# Node — its state and its registration

The state of a node is kept apart from what it knows of the overlay, and handlers write the two one
after the other.  `NodeState.Fits s id` says that a node may be in the state `s` while its
identifier is `id`.  A node is *candid* if every state it has logged fits the identifier it logged
with it, which covers the states that it passes through within a handler, and *composed* if the
state it is in fits what it knows.

A handler is *discreet* if it logs no state that does not fit, and *steady* if it leaves the state,
what is known of the overlay and the cached connections as they are.  All but a few things that
happen to a node are steady; `turns_act` says which, and what comes of them.  One of them is not
discreet: a setup is reported under the identifier that the node had when it took the manifest up,
and the node may have lost it since (`Node.Belated`).

* `composed_run_iff`: a composed node stays so, whatever happens to it, exactly as long as no setup
  succeeds belatedly.
* `dismissed_of_unregistered`: a node that was registered, and is seen not to be, was dismissed by
  its registry, and keeps no connection to it.
-/

namespace RingOverlay

namespace NodeState

/-- Whether a state says that the node has reached all its fingers. -/
def isConnected : NodeState → Bool
  | connectionsEstablished | setupReported true => true
  | _ => false

/-- Whether a node may be in a state while its identifier is `id`. -/
structure Fits (s : NodeState) (id : Option NodeId) : Prop where
  unregistered : s = .unregistered → id = none
  connected : s.isConnected = true → id.isSome

theorem fits_unregistered : Fits .unregistered none := ⟨fun _ => rfl, fun h => nomatch h⟩

/-- A state between joining and being connected fits any identifier. -/
theorem Fits.of_between {s : NodeState} {id : Option NodeId} (h : s ≠ .unregistered)
    (hs : s.isConnected = false) : s.Fits id :=
  ⟨fun hu => absurd hu h, fun hc => by rw [hs] at hc; cases hc⟩

end NodeState

/-- The state that an effect logs, and the identifier it logs with it. -/
def NodeEffect.state? : NodeEffect → Option (Option NodeId × NodeState)
  | .logged (.state id s _) => some (id, s)
  | _ => none

namespace Node

variable {n n' n'' : Node}

/-- Every state that a node has logged fits the identifier that it logged with it. -/
def Candid (n : Node) : Prop :=
  ∀ e ∈ n.effects, ∀ id s, e.state? = some (id, s) → s.Fits id

/-- The state of a node fits what it knows of the overlay, and always has. -/
structure Composed (n : Node) : Prop where
  unregistered : n.state = .unregistered → n.topology = .none
  connected : n.state.isConnected = true → n.topology.id.isSome
  candid : n.Candid

theorem Composed.fits (h : n.Composed) : n.state.Fits n.topology.id :=
  ⟨fun hs => by rw [h.unregistered hs]; rfl, h.connected⟩

/-- From `n` to `n'`, nothing that was done is undone, and no state is logged that does not fit. -/
structure Discreet (n n' : Node) : Prop where
  config : n'.config = n.config
  effects : n.effects <:+ n'.effects
  candid : n.state.Fits n.topology.id → n.Candid → n'.Candid

/-- From `n` to `n'`, the node stays in its state and learns nothing of the overlay. -/
structure Steady (n n' : Node) : Prop extends Discreet n n' where
  state : n'.state = n.state
  topology : n'.topology = n.topology
  cache : n'.cache = n.cache

/-! ### Logging -/

theorem Candid.congr (h : n.Candid) (he : n'.effects = n.effects) : n'.Candid :=
  fun e hmem => h e (he ▸ hmem)

theorem Candid.emit {e : NodeEffect} (h : n.Candid)
    (he : ∀ id s, e.state? = some (id, s) → s.Fits id) : (n.emit e).Candid := by
  intro e' hmem id s hs
  rcases List.mem_cons.mp hmem with rfl | hmem
  · exact he id s hs
  · exact h e' hmem id s hs

theorem Candid.log_state {id : Option NodeId} {s : NodeState} (h : n.Candid) (hs : s.Fits id)
    (note : String) : (n.log (.state id s note)).Candid :=
  h.emit fun _ _ heq => by cases heq; exact hs

theorem Candid.setState {s : NodeState} (h : n.Candid) (hs : s.Fits n.topology.id)
    (note : String) : (n.setState s note).Candid :=
  log_state (n := { n with state := s }) h hs note

theorem Candid.notice (h : n.Candid) (line : String) : (n.notice line).Candid := by
  unfold Node.notice
  split
  · exact h.emit fun _ _ he => nomatch he
  · exact h

namespace Steady

/-- Nothing but the state, what is known of the overlay, the cache and the effects matters. -/
theorem of_same (hconfig : n'.config = n.config) (hstate : n'.state = n.state)
    (htopology : n'.topology = n.topology) (hcache : n'.cache = n.cache)
    (heffects : n'.effects = n.effects) : Steady n n' :=
  ⟨⟨hconfig, heffects ▸ List.suffix_refl _, fun _ h => h.congr heffects⟩, hstate, htopology, hcache⟩

theorem refl (n : Node) : Steady n n := of_same rfl rfl rfl rfl rfl

theorem trans (h : Steady n n') (h' : Steady n' n'') : Steady n n'' := by
  refine ⟨⟨h'.config.trans h.config, h.effects.trans h'.effects,
    fun hfits hn => h'.candid ?_ (h.candid hfits hn)⟩,
    h'.state.trans h.state, h'.topology.trans h.topology, h'.cache.trans h.cache⟩
  rw [h.state, h.topology]
  exact hfits

theorem composed (h : Steady n n') (hn : n.Composed) : n'.Composed := by
  refine ⟨fun hs => ?_, fun hs => ?_, h.candid hn.fits hn.candid⟩
  · rw [h.topology]
    exact hn.unregistered (h.state.symm.trans hs)
  · rw [h.topology]
    exact hn.connected (h.state ▸ hs)

/-- An effect that is about no state. -/
theorem emit (n : Node) {e : NodeEffect} (he : e.state? = none) : Steady n (n.emit e) :=
  ⟨⟨rfl, List.suffix_cons _ _, fun _ hn => hn.emit fun _ _ h => by rw [he] at h; cases h⟩, rfl, rfl,
    rfl⟩

/-- An event that is about no state. -/
theorem log (n : Node) {e : NodeEvent} (he : (NodeEffect.logged e).state? = none) :
    Steady n (n.log e) :=
  emit n he

/-- A state is logged that fits, if the state of the node does. -/
theorem log_state {id : Option NodeId} {s : NodeState} (note : String)
    (h : n.state.Fits n.topology.id → s.Fits id) : Steady n (n.log (.state id s note)) :=
  ⟨⟨rfl, List.suffix_cons _ _, fun hfits hn => hn.log_state (h hfits) note⟩, rfl, rfl, rfl⟩

theorem notice (n : Node) (line : String) : Steady n (n.notice line) := by
  unfold Node.notice
  split
  · exact emit n rfl
  · exact refl n

/-- The counters change. -/
theorem count (n : Node) (c : Counters) : Steady n { n with counters := c } :=
  of_same rfl rfl rfl rfl rfl

theorem sendToRegistry (n : Node) (m : Message) : Steady n (n.sendToRegistry m) := by
  unfold Node.sendToRegistry
  split
  · exact emit n rfl
  · exact log n rfl

/-! ### Steady handlers -/

theorem forward (n : Node) (me : NodeId) (p : Packet) : Steady n (n.forward me p).1 := by
  unfold Node.forward
  split
  · exact (log n rfl).trans (log _ rfl)
  · simp only
    split
    · exact (log n rfl).trans (log _ rfl)
    · exact emit n rfl

theorem ship (n : Node) (p : Packet) : Steady n (n.ship p) :=
  ((count n _).trans (log _ rfl)).trans (forward _ _ _)

theorem foldl_ship (ps : List Packet) (n : Node) : Steady n (ps.foldl Node.ship n) := by
  induction ps generalizing n with
  | nil => exact refl n
  | cons p ps ih => exact (ship n p).trans (ih _)

theorem initiateTask (n : Node) (draws : Draws) (count : UInt32) :
    Steady n (n.initiateTask draws count) := by
  cases hid : n.topology.id with
  | none =>
    simp only [Node.initiateTask, hid]
    exact log n rfl
  | some id =>
    have hships := foldl_ship (n.batch id draws count.toNat) n
    rw [initiateTask_eq hid]
    refine (hships.trans (log_state _ fun hfits => ?_)).trans (sendToRegistry _ _)
    rwa [hships.topology, hid] at hfits

theorem packetArrived (n : Node) (p : Packet) : Steady n (n.packetArrived p) := by
  cases hid : n.topology.id with
  | none =>
    simp only [Node.packetArrived, hid]
    exact log n rfl
  | some me =>
    have hfwd := forward n me { p with trace := p.trace ++ [me] }
    simp only [Node.packetArrived, hid]
    split
    · exact (count n _).trans (log _ rfl)
    · split
      · next h =>
        rw [h] at hfwd
        exact (hfwd.trans (count _ _)).trans (log _ rfl)
      · next h => rwa [h] at hfwd

theorem summarise (n : Node) (link : LinkId) : Steady n (n.summarise link) := by
  unfold Node.summarise
  split
  · exact log n rfl
  · simp only
    split
    · exact (count n _).trans (emit _ rfl)
    · exact (count n _).trans (log _ rfl)

theorem exit (n : Node) : Steady n n.exit.1 := by
  unfold Node.exit
  split
  · exact refl n
  · next id hid =>
    split
    · exact refl n
    · next link _ =>
      have hsent : Steady n (n.emit (.sent link (.nodeDeregisters n.address id))) := emit n rfl
      refine hsent.trans (log_state _ fun hfits => ?_)
      rwa [hsent.topology, hid] at hfits

end Steady

/-! ### What changes the state -/

/-- A registry dismisses the node: it is told that it is removed, and lets go of the connection. -/
structure Dismissed (n : Node) (a : Action) : Prop where
  told : ∃ draws link status info,
    a = .received draws link (.deregistrationStatus status info) ∧ 0 ≤ status ∧
      (n.read? link).isSome
  uncached : (n.act a).cache.get? n.config.registry = none
  closed : ∀ link, n.cache.get? n.config.registry = some link →
    (n.act a).links.isOpen link = false

/-- A setup succeeds belatedly: the node has lost the identifier that it took the manifest up
with. -/
structure Belated (n : Node) (a : Action) : Prop where
  id : n.topology.id = none
  established : ∃ reaches k s,
    a = .dialed reaches k ∧ n.setups[k]? = some s ∧ s.established reaches = true

/-- What an action may do to the state of a node, and to what it knows of the overlay. -/
inductive Turns (n : Node) (a : Action) : Prop where
  | stays (h : Steady n (n.act a))
  | registered (h : Discreet n (n.act a)) (id : NodeId) (hstate : (n.act a).state = .registered)
      (htopology : (n.act a).topology = { n.topology with id := some id })
  | tookUp (h : Discreet n (n.act a)) (hstate : (n.act a).state = .manifestReceived)
      (hid : (n.act a).topology.id = n.topology.id)
  | reported (h : Discreet n (n.act a)) (established : Bool)
      (hstate : (n.act a).state = .setupReported established)
      (htopology : (n.act a).topology = n.topology)
      (hid : established = true → n.topology.id.isSome)
  | belated (hbelated : n.Belated a) (hconfig : (n.act a).config = n.config)
      (heffects : n.effects <:+ (n.act a).effects)
      (hstate : (n.act a).state = .setupReported true)
  | left (h : Discreet n (n.act a)) (hstate : (n.act a).state = .unregistered)
      (htopology : (n.act a).topology = .none) (hdismissed : n.Dismissed a)

variable {a : Action}

namespace Turns

theorem config (h : n.Turns a) : (n.act a).config = n.config := by
  cases h with
  | stays h => exact h.config
  | registered h | tookUp h | reported h | left h => exact h.config
  | belated _ hconfig => exact hconfig

theorem effects (h : n.Turns a) : n.effects <:+ (n.act a).effects := by
  cases h with
  | stays h => exact h.effects
  | registered h | tookUp h | reported h | left h => exact h.effects
  | belated _ _ heffects => exact heffects

/-- An unregistered node knows nothing of the overlay, whatever happens to it. -/
theorem unregistered (h : n.Turns a) (hn : n.state = .unregistered → n.topology = .none)
    (hs : (n.act a).state = .unregistered) : (n.act a).topology = .none := by
  cases h with
  | stays h => exact h.topology.trans (hn (h.state ▸ hs))
  | registered _ _ hstate | tookUp _ hstate | reported _ _ hstate | belated _ _ _ hstate =>
    rw [hstate] at hs
    cases hs
  | left _ _ htopology => exact htopology

/-- Nothing turns a composed node into one that is not, but a belated success. -/
theorem composed (h : n.Turns a) (hn : n.Composed) (hbelated : ¬ n.Belated a) :
    (n.act a).Composed := by
  cases h with
  | stays h => exact h.composed hn
  | registered h id hstate htopology =>
    refine ⟨fun hs => ?_, fun hs => ?_, h.candid hn.fits hn.candid⟩
    all_goals rw [hstate] at hs; cases hs
  | tookUp h hstate =>
    refine ⟨fun hs => ?_, fun hs => ?_, h.candid hn.fits hn.candid⟩
    all_goals rw [hstate] at hs; cases hs
  | reported h established hstate htopology hid =>
    refine ⟨fun hs => ?_, fun hs => ?_, h.candid hn.fits hn.candid⟩
    · rw [hstate] at hs; cases hs
    · rw [htopology]
      rw [hstate] at hs
      cases established with
      | true => exact hid rfl
      | false => cases hs
  | belated h => exact absurd h hbelated
  | left h hstate htopology _ =>
    refine ⟨fun _ => htopology, fun hs => ?_, h.candid hn.fits hn.candid⟩
    rw [hstate] at hs; cases hs

end Turns

/-! ### Registering -/

theorem turns_registrationStatus (status : Int32) (info : String)
    (ha : n.act a = n.registrationStatus status info) : n.Turns a := by
  unfold registrationStatus at ha
  split at ha
  · refine .stays (ha ▸ (Steady.notice n info).trans (.log_state _ fun _ => ?_))
    exact NodeState.fits_unregistered
  · split at ha
    · next id _ =>
      let named : Node := { n with topology := { n.topology with id := some id } }
      have hnotice := Steady.notice named info
      refine .registered (ha ▸ ⟨hnotice.config, ?_, fun _ hn => ?_⟩) id (by rw [ha]; rfl)
        (by rw [ha]; exact hnotice.topology)
      · exact hnotice.effects.trans (List.suffix_cons _ _)
      have hnamed : (named.notice info).Candid := Candid.notice (n := named) hn info
      exact hnamed.setState (s := .registered) (.of_between nofun rfl) info
    · exact .stays (ha ▸ .log n rfl)

/-! ### Leaving -/

theorem leaveRegistry_same (n : Node) : n.leaveRegistry.config = n.config ∧
    n.leaveRegistry.topology = n.topology ∧ n.leaveRegistry.effects = n.effects := by
  unfold leaveRegistry
  split
  · exact ⟨rfl, rfl, rfl⟩
  · exact ⟨rfl, rfl, rfl⟩

theorem get?_leaveRegistry (n : Node) : n.leaveRegistry.cache.get? n.config.registry = none := by
  unfold leaveRegistry
  split
  · exact Cache.get?_erase_self _ _
  · assumption

theorem isOpen_leaveRegistry {link : LinkId} (h : n.cache.get? n.config.registry = some link) :
    n.leaveRegistry.links.isOpen link = false := by
  simp only [leaveRegistry, h]
  exact Links.isOpen_close_self _ _

/-- The registry answers that it has removed the node. -/
theorem turns_deregistrationStatus {draws : Draws} {link : LinkId} {status : Int32} {info : String}
    (ha : a = .received draws link (.deregistrationStatus status info))
    (hact : n.act a = n.deregistrationStatus status info) (hread : (n.read? link).isSome) :
    n.Turns a := by
  have hnotice := Steady.notice n info
  unfold deregistrationStatus at hact
  split at hact
  · refine .stays (hact ▸ hnotice.trans (.log_state _ fun hfits => hfits))
  · next hstatus =>
    let gone : Node := { n.notice info with topology := .none }
    obtain ⟨hconfig, htopology, heffects⟩ := leaveRegistry_same gone
    refine .left (hact ▸ ⟨hconfig.trans hnotice.config, ?_, fun _ hn => ?_⟩) (by rw [hact]; rfl)
      (by rw [hact]; exact htopology) ⟨⟨draws, link, status, info, ha, ?_, hread⟩, ?_, ?_⟩
    · have hgone : gone.effects <:+ gone.leaveRegistry.effects := heffects ▸ List.suffix_refl _
      exact (hnotice.effects.trans hgone).trans (List.suffix_cons _ _)
    · have hgone : gone.leaveRegistry.Candid := (hn.notice info).congr heffects
      refine hgone.setState ?_ info
      rw [htopology]
      exact NodeState.fits_unregistered
    · exact Int32.not_lt.mp hstatus
    · rw [hact, ← hnotice.config]
      exact get?_leaveRegistry gone
    · intro k hk
      rw [hact]
      refine isOpen_leaveRegistry (n := gone) ?_
      rw [← hk, ← hnotice.cache, ← hnotice.config]

/-! ### Setting up -/

theorem turns_takeUp (link : LinkId) (table : FingerTable) (nodeIds : List NodeId)
    (ha : n.act a = n.takeUp link table nodeIds) : n.Turns a := by
  refine .tookUp (ha ▸ ⟨rfl, List.suffix_cons _ _, fun _ hn => ?_⟩) (by rw [ha]; rfl)
    (by rw [ha]; rfl)
  have hlearned : (n.learn table nodeIds).Candid :=
    Candid.setState (s := .manifestReceived) hn (.of_between nofun rfl) "manifest received"
  exact hlearned

theorem effects_dialEach (reaches : PeerAddress → Bool) (as : List PeerAddress) (n : Node) :
    n.effects <:+ (dialEach reaches as n).1.effects :=
  dialEach_induction (R := fun n n' => n.effects <:+ n'.effects) (fun _ => List.suffix_refl _)
    List.IsSuffix.trans (fun _ _ => List.suffix_refl _) (fun _ _ => List.suffix_cons _ _) reaches as n

/-- No state is logged while the fingers are dialed. -/
theorem Candid.dialEach (h : n.Candid) (reaches : PeerAddress → Bool) (as : List PeerAddress) :
    (dialEach reaches as n).1.Candid :=
  dialEach_induction (R := fun n n' => n.Candid → n'.Candid) (fun _ h => h)
    (fun h h' hn => h' (h hn)) (fun _ _ hn => hn.congr rfl)
    (fun _ _ hn => hn.emit fun _ _ he => nomatch he) reaches as n h

/-- The states that a node passes through as it reports a setup. -/
def connection (established : Bool) : NodeState :=
  if established then .connectionsEstablished else .connectionsFailed

theorem fits_reported {established : Bool} {id : Option NodeId}
    (h : established = true → id.isSome) :
    (connection established).Fits id ∧ (NodeState.setupReported established).Fits id := by
  cases established with
  | true => exact ⟨⟨nofun, fun _ => h rfl⟩, ⟨nofun, fun _ => h rfl⟩⟩
  | false => exact ⟨.of_between nofun rfl, .of_between nofun rfl⟩

/-- A setup is reported in two states that say how the dials went. -/
theorem finishSetup_eq {s : Setup} {k : Nat} (hk : n.setups[k]? = some s)
    (reaches : PeerAddress → Bool) :
    ∃ status info, n.finishSetup reaches k =
      (((n.dialed reaches k s).1.setState (connection (s.established reaches)) info).sendToRegistry
        (.overlaySetupStatus status info)).setState (.setupReported (s.established reaches))
        "setup reported" := by
  let outcome := setupOutcome s.id s.fingers (n.dialed reaches k s).2
  have houtcome : (outcome.1 != failureStatus) = s.established reaches :=
    (outcome_dialEach reaches s _).1
  refine ⟨outcome.1, outcome.2, ?_⟩
  rw [finishSetup_of_some hk, reportSetup_eq, connect, houtcome]
  rfl

/-- A setup is reported under the identifier that the node had when it took the manifest up, which
it may have lost. -/
theorem turns_finishSetup {reaches : PeerAddress → Bool} {k : Nat} (ha : a = .dialed reaches k) :
    n.Turns a := by
  have hact : n.act a = n.finishSetup reaches k := by rw [ha]; rfl
  cases hk : n.setups[k]? with
  | none =>
    refine .stays ?_
    rw [hact, finishSetup_of_none hk]
    exact .refl n
  | some s =>
    obtain ⟨status, info, heq⟩ := finishSetup_eq hk reaches
    let pruned : Node := { n with setups := n.setups.eraseIdx k }
    let dialed := (n.dialed reaches k s).1
    have hconfig : dialed.config = n.config := config_dialEach reaches s.dials pruned
    have htopology : dialed.topology = n.topology := topology_dialEach reaches s.dials pruned
    have heffects : n.effects <:+ dialed.effects := effects_dialEach reaches s.dials pruned
    have hcandid (hn : n.Candid) : dialed.Candid :=
      Candid.dialEach (n := pruned) (hn.congr rfl) reaches s.dials
    let connected := dialed.setState (connection (s.established reaches)) info
    let told := connected.sendToRegistry (.overlaySetupStatus status info)
    have htold : Steady connected told := .sendToRegistry connected _
    have hstate : (n.act a).state = .setupReported (s.established reaches) := by rw [hact, heq]; rfl
    have hconfig' : (n.act a).config = n.config := by
      rw [hact, heq]
      exact htold.config.trans hconfig
    have htopology' : (n.act a).topology = n.topology := by
      rw [hact, heq]
      exact htold.topology.trans htopology
    have heffects' : n.effects <:+ (n.act a).effects := by
      rw [hact, heq]
      have hconnected : dialed.effects <:+ connected.effects := List.suffix_cons _ _
      exact ((heffects.trans hconnected).trans htold.effects).trans (List.suffix_cons _ _)
    by_cases hid : s.established reaches = true → n.topology.id.isSome
    · refine .reported ⟨hconfig', heffects', fun _ hn => ?_⟩ _ hstate htopology' hid
      have hids : dialed.topology.id = n.topology.id := congrArg Topology.id htopology
      have hids' : told.topology.id = n.topology.id := (congrArg Topology.id htold.topology).trans hids
      obtain ⟨hconnection, hreported⟩ := fits_reported hid
      have hconnected : connected.Candid := (hcandid hn).setState (hids ▸ hconnection) info
      rw [hact, heq]
      exact (htold.candid (hids ▸ hconnection) hconnected).setState (hids' ▸ hreported) _
    · obtain ⟨hestablished, hnone⟩ := Classical.not_imp.mp hid
      refine .belated ⟨Option.not_isSome_iff_eq_none.mp hnone, reaches, k, s, ha, hk, hestablished⟩
        hconfig' heffects' ?_
      rw [hstate, hestablished]

/-- A belated success is logged as a state that does not fit. -/
theorem Belated.not_candid (h : n.Belated a) : ¬ (n.act a).Candid := by
  obtain ⟨reaches, k, s, rfl, hk, hestablished⟩ := h.established
  obtain ⟨status, info, heq⟩ := finishSetup_eq hk reaches
  rw [hestablished] at heq
  let dialed := (n.dialed reaches k s).1
  have htopology : dialed.topology = n.topology :=
    topology_dialEach reaches s.dials { n with setups := n.setups.eraseIdx k }
  let connected := dialed.setState .connectionsEstablished info
  have hnone : dialed.topology.id = none := (congrArg Topology.id htopology).trans h.id
  have htold : Steady connected (connected.sendToRegistry (.overlaySetupStatus status info)) :=
    .sendToRegistry connected _
  have hlogged : .logged (.state dialed.topology.id .connectionsEstablished info) ∈
      (n.finishSetup reaches k).effects := by
    rw [heq]
    exact List.mem_cons_of_mem _ (htold.effects.subset List.mem_cons_self)
  intro hcandid
  have hfits := hcandid _ hlogged _ _ rfl
  rw [hnone] at hfits
  cases hfits.connected rfl

/-! ### One step -/

/-- **What an action may do** to the state of a node, and to what it knows of the overlay. -/
theorem turns_act (n : Node) (a : Action) : n.Turns a := by
  cases a with
  | accepted shown => exact .stays (.of_same rfl rfl rfl rfl rfl)
  | closed link => exact .stays (.of_same rfl rfl rfl rfl rfl)
  | exited => exact .stays (.exit n)
  | dialed reaches k => exact turns_finishSetup rfl
  | received draws link m =>
    cases hread : n.read? link with
    | none =>
      refine .stays ?_
      rw [act_received_of_unread hread]
      exact .refl n
    | some far =>
      have hact := act_received hread draws m
      cases m with
      | registrationStatus status info => exact turns_registrationStatus status info hact
      | deregistrationStatus status info =>
        exact turns_deregistrationStatus rfl hact (by rw [hread]; rfl)
      | nodeManifest table nodeIds => exact turns_takeUp link table nodeIds hact
      | taskInitiate count => exact .stays (hact ▸ .initiateTask n draws count)
      | dataPacket p => exact .stays (hact ▸ .packetArrived n p)
      | trafficSummaryRequest => exact .stays (hact ▸ .summarise n link)
      | nodeRegisters | nodeDeregisters | overlaySetupStatus | taskFinished
      | trafficSummaryReport => exact .stays (hact ▸ .log n rfl)

/-! ### Runs -/

theorem run_concat (n : Node) (as : List Action) (a : Action) :
    n.run (as ++ [a]) = (n.run as).act a :=
  List.foldl_concat _ _ _ _

theorem config_run (n : Node) (as : List Action) : (n.run as).config = n.config := by
  induction as generalizing n with
  | nil => rfl
  | cons a as ih => exact (ih (n.act a)).trans (turns_act n a).config

theorem effects_run (n : Node) (as : List Action) : n.effects <:+ (n.run as).effects := by
  induction as generalizing n with
  | nil => exact List.suffix_refl _
  | cons a as ih => exact (turns_act n a).effects.trans (ih (n.act a))

/-- An unregistered node knows nothing of the overlay. -/
theorem unregistered_run (hn : n.state = .unregistered → n.topology = .none) (as : List Action) :
    (n.run as).state = .unregistered → (n.run as).topology = .none := by
  induction as generalizing n with
  | nil => exact hn
  | cons a as ih => exact ih ((turns_act n a).unregistered hn)

/-- **A composed node stays so exactly as long as no setup succeeds belatedly.** -/
theorem composed_run_iff (hn : n.Composed) (as : List Action) :
    (n.run as).Composed ↔
      ∀ before a after, as = before ++ a :: after → ¬ (n.run before).Belated a := by
  constructor
  · rintro hcomposed before a after rfl hbelated
    refine hbelated.not_candid fun e he => hcomposed.candid e ?_
    have hafter := effects_run ((n.run before).act a) after
    rw [run, List.foldl_append]
    exact hafter.subset he
  · intro hall
    induction as generalizing n with
    | nil => exact hn
    | cons a as ih =>
      refine ih ((turns_act n a).composed hn (hall [] a as rfl)) fun before b after heq => ?_
      exact hall (a :: before) b after (by rw [heq]; rfl)

theorem composed_join (config : NodeConfig) (address : PeerAddress) :
    (join config address).Composed ∧ (join config address).config = config := by
  let dialed := (unconnected config address).dial config.registry
  have hdialed : dialed.Composed := ⟨fun _ => rfl, nofun, fun e he => absurd he List.not_mem_nil⟩
  have hsteady : Steady dialed (join config address) := by
    rw [join_eq]
    exact (Steady.sendToRegistry dialed (.nodeRegisters address)).trans
      (.log_state _ fun _ => NodeState.fits_unregistered)
  exact ⟨hsteady.composed hdialed, hsteady.config⟩

/-- **Who is seen to have left was dismissed.**  A node that was registered, and is not any more,
was dismissed on the way; and as long as it stays so, it keeps no connection to the registry. -/
theorem dismissed_of_unregistered (hn : n.state ≠ .unregistered) (as : List Action)
    (h : (n.run as).state = .unregistered) :
    (n.run as).cache.get? n.config.registry = none ∧
    ∃ before a after, as = before ++ a :: after ∧ (n.run before).Dismissed a := by
  induction as using List.reverseRecOn with
  | nil => exact absurd h hn
  | append_singleton as a ih =>
    rw [run_concat] at h ⊢
    cases turns_act (n.run as) a with
    | stays hsteady =>
      obtain ⟨huncached, before, a', after, rfl, hdismissed⟩ := ih (hsteady.state ▸ h)
      rw [hsteady.cache]
      exact ⟨huncached, before, a', after ++ [a], by simp, hdismissed⟩
    | registered _ _ hstate | tookUp _ hstate | reported _ _ hstate | belated _ _ _ hstate =>
      rw [hstate] at h
      cases h
    | left _ _ _ hdismissed =>
      have huncached := hdismissed.uncached
      rw [config_run] at huncached
      exact ⟨huncached, as, a, [], rfl, hdismissed⟩

/-- A node that may ask to leave has an identifier. -/
theorem isSome_of_exit (h : n.exit.2 = .ok ()) : n.topology.id.isSome := by
  unfold exit at h
  split at h
  · cases h
  · next hid => rw [hid]; rfl

/-- **The state of a node fits its registration**, whatever it is told and whoever it reaches: once
it is unregistered it knows nothing of the overlay, and without an identifier it is not connected,
in every state that it is in or passes through, unless a setup has succeeded belatedly.  After it has
asked to leave, it is unregistered only once its registry has dismissed it, which closes the
connection to the registry. -/
theorem registration_fits {config : NodeConfig} {address : PeerAddress} {as : List Action}
    (hn : (join config address).run as = n) :
    (n.state = .unregistered → n.topology = .none) ∧
    (n.topology.id.isSome → n.state ≠ .unregistered) ∧
    (n.Composed ↔ ∀ before a after, as = before ++ a :: after →
      ¬ ((join config address).run before).Belated a) ∧
    (n.exit.2 = .ok () → ∀ bs, (n.exit.1.run bs).state = .unregistered →
      (n.exit.1.run bs).cache.get? config.registry = none ∧
      ∃ before a after, bs = before ++ a :: after ∧ (n.exit.1.run before).Dismissed a) := by
  obtain ⟨hjoined, hconfig⟩ := composed_join config address
  have hun : n.state = .unregistered → n.topology = .none :=
    hn ▸ unregistered_run hjoined.unregistered as
  have hid : n.topology.id.isSome → n.state ≠ .unregistered := fun hid hs => by
    rw [hun hs] at hid
    cases hid
  refine ⟨hun, hid, hn ▸ composed_run_iff hjoined as, fun hexit bs hs => ?_⟩
  have hsteady := Steady.exit n
  have hleft := dismissed_of_unregistered
    (fun h => hid (isSome_of_exit hexit) (hsteady.state.symm.trans h)) bs hs
  rwa [hsteady.config, ← hn, config_run, hconfig, hn] at hleft

/-- A node that has registered and asks to leave: it is dismissed as soon as it is unregistered. -/
theorem registration_fits_dismissed :
    let dismissal := Action.received (.ofList []) 0 (.deregistrationStatus 5 "bye")
    let n := (join {} ⟨"127.0.0.1", 6000⟩).run
      [.received (.ofList []) 0 (.registrationStatus 5 "welcome")]
    n.exit.2 = .ok () ∧ (n.exit.1.run [dismissal]).state = .unregistered ∧
      ∃ before a after, [dismissal] = before ++ a :: after ∧ (n.exit.1.run before).Dismissed a := by
  refine ⟨rfl, rfl, ?_⟩
  exact ((registration_fits rfl).2.2.2 rfl _ rfl).2

/-- While a node dials the finger of its manifest, a caller tells it that it is removed; and then
the dial succeeds. -/
def dismissedMidway : List Action :=
  [.received (.ofList []) 0 (.registrationStatus 5 "welcome"), .accepted "127.0.0.1:40000",
    .received (.ofList []) 0 (.nodeManifest ⟨[⟨9, ⟨"127.0.0.1", 7009⟩⟩], by decide⟩ [5, 9]),
    .received (.ofList []) 1 (.deregistrationStatus 5 "bye"), .dialed (fun _ => true) 0]

/-- The node is connected and reports so, and has no identifier. -/
theorem registration_fits_midway :
    let n := (join {} ⟨"127.0.0.1", 6000⟩).run dismissedMidway
    n.state = .setupReported true ∧ n.topology = .none ∧
    .logged (.state none .connectionsEstablished "Node 5 connected to 1 fingers") ∈ n.effects ∧
    ¬ n.Composed := by
  intro n
  refine ⟨by decide, by decide, by decide, fun h => ?_⟩
  have hconnected := h.connected (by decide)
  revert hconnected
  decide

end Node

end RingOverlay
