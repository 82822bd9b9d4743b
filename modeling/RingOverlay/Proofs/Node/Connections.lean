import Mathlib.Data.List.Infix
import RingOverlay.Proofs.Finger.NextHop
import RingOverlay.Proofs.Node.Account
import RingOverlay.Proofs.Node.Dials
import RingOverlay.Proofs.Node.Fate

/-!
# Node — its connections, and what a setup makes of them

Everything that a node has cached is a connection that it has made, and so is everything that has
closed (`Rooted`).  `Keeps n n'` says that on the way from `n` to `n'` no connection opens again,
and that under every address the connection that was live is the one that is live, unless it has
closed.  Whatever a node does keeps its connections, but for the end of a setup.  The addresses that
it dials were without a live connection when it began, and may have got one since; but an address
that has a live connection still has one afterwards (`Retains`).

`TakesUp` is all that becomes of a manifest that comes in, and `CarriesOut` all that becomes of a
setup whose dials have ended: which connections are made, what is logged and reported, and what is
live afterwards.

* `retains_act`: every action retains the connections of a node.
* `live_run`, `held_run`: what is live stays so, until it closes.
* `takesUp_hear`, `carriesOut_finishSetup`: what the two stages of a setup do.
* `manifest_carried_out`: **if the setup is reported to be established, every finger has a live
  connection, and as long as none of these closes no packet is dropped**.
-/

namespace RingOverlay.Node

open NodeEffect

/-- The connections that a node has cached are ones that it has made, and so are those that have
closed. -/
structure Rooted (n : Node) : Prop where
  cached : ∀ a link, n.cache.get? a = some link → link < n.links.ends.length
  closed : ∀ link ∈ n.links.closed, link < n.links.ends.length

/-- A connection is live under an address that no setup under way dials. -/
structure Held (n : Node) (a : PeerAddress) (link : LinkId) : Prop where
  live : n.live? a = some link
  undialed : ∀ s ∈ n.setups, a ∉ s.dials

/-- From `n` to `n'`, no connection opens again, and one that was live under an address and is still
open is live there still. -/
structure Keeps (n n' : Node) : Prop where
  rooted : n.Rooted → n'.Rooted
  ends : n.links.ends <+: n'.links.ends
  open_of_open : ∀ link, link < n.links.ends.length → n'.links.isOpen link = true →
    n.links.isOpen link = true
  live : ∀ a link, n.live? a = some link → n'.links.isOpen link = true → n'.live? a = some link
  held : ∀ a link, n.Held a link → n'.links.isOpen link = true → n'.Held a link

/-- From `n` to `n'`, no connection opens again, and an address whose live connection is still open
has a live connection still; the same one, if no setup dials the address. -/
structure Retains (n n' : Node) : Prop where
  rooted : n.Rooted → n'.Rooted
  ends : n.links.ends <+: n'.links.ends
  open_of_open : ∀ link, link < n.links.ends.length → n'.links.isOpen link = true →
    n.links.isOpen link = true
  live : n.Rooted → ∀ a link, n.live? a = some link → n'.links.isOpen link = true →
    (n'.live? a).isSome
  held : n.Rooted → ∀ a link, n.Held a link → n'.links.isOpen link = true → n'.Held a link

variable {n n' n'' : Node}

theorem live?_eq_some_iff {a : PeerAddress} {link : LinkId} :
    n.live? a = some link ↔ n.cache.get? a = some link ∧ n.links.isOpen link = true :=
  Option.filter_eq_some_iff

namespace Keeps

theorem retains (h : Keeps n n') : Retains n n' :=
  ⟨h.rooted, h.ends, h.open_of_open,
    fun _ a link hlive ho => Option.isSome_of_eq_some (h.live a link hlive ho), fun _ => h.held⟩

/-- No setup begins. -/
theorem of_live (hrooted : n.Rooted → n'.Rooted) (hends : n.links.ends <+: n'.links.ends)
    (hopen : ∀ link, link < n.links.ends.length → n'.links.isOpen link = true →
      n.links.isOpen link = true)
    (hlive : ∀ a link, n.live? a = some link → n'.links.isOpen link = true →
      n'.live? a = some link)
    (hsetups : n'.setups ⊆ n.setups) : Keeps n n' :=
  ⟨hrooted, hends, hopen, hlive, fun a link h ho =>
    ⟨hlive a link h.live ho, fun s hs => h.undialed s (hsetups hs)⟩⟩

/-- Nothing but the connections of a node, its cache and its setups matters. -/
theorem of_same (hcache : n'.cache = n.cache) (hlinks : n'.links = n.links)
    (hsetups : n'.setups = n.setups) : Keeps n n' := by
  have hlive : ∀ a, n'.live? a = n.live? a := fun a => by rw [live?, live?, hcache, hlinks]
  exact of_live (fun hn => ⟨by rw [hcache, hlinks]; exact hn.cached, by rw [hlinks]; exact hn.closed⟩)
    (hlinks ▸ List.prefix_refl _) (fun link _ h => hlinks ▸ h) (fun a link h _ => (hlive a).trans h)
    (hsetups ▸ List.Subset.refl _)

theorem refl (n : Node) : Keeps n n := of_same rfl rfl rfl

theorem trans (h : Keeps n n') (h' : Keeps n' n'') : Keeps n n'' := by
  have hopen : ∀ link, link < n.links.ends.length → n''.links.isOpen link = true →
      n'.links.isOpen link = true :=
    fun link hlt hopen => h'.open_of_open link (Nat.lt_of_lt_of_le hlt h.ends.length_le) hopen
  have hlt : ∀ a link, n.live? a = some link → link < n.links.ends.length := fun a link hlive =>
    (Links.isOpen_iff.mp (live?_eq_some_iff.mp hlive).2).1
  refine ⟨fun hn => h'.rooted (h.rooted hn), h.ends.trans h'.ends,
    fun link hlt ho => h.open_of_open link hlt (hopen link hlt ho), fun a link hlive ho => ?_,
    fun a link hheld ho => ?_⟩
  · exact h'.live a link (h.live a link hlive (hopen link (hlt a link hlive) ho)) ho
  · exact h'.held a link (h.held a link hheld (hopen link (hlt a link hheld.live) ho)) ho

theorem notice (n : Node) (line : String) : Keeps n (n.notice line) := by
  unfold Node.notice
  split
  · exact of_same rfl rfl rfl
  · exact refl n

theorem sendToRegistry (n : Node) (m : Message) : Keeps n (n.sendToRegistry m) := by
  unfold Node.sendToRegistry
  split <;> exact of_same rfl rfl rfl

theorem of_traffic {c : Counters} {o : List Cargo} {d : List Delivery} {q : List (LinkId × Packet)}
    (h : Traffic n n' c o d q) : Keeps n n' := by
  obtain ⟨es, rfl, -⟩ := h
  exact of_same rfl rfl rfl

/-! ### Connecting and disconnecting -/

theorem accept (n : Node) (shown : String) : Keeps n (n.accept shown) := by
  have hends : n.links.ends <+: (n.accept shown).links.ends := List.prefix_append _ _
  have hopen : ∀ link, link < n.links.ends.length →
      (n.accept shown).links.isOpen link = n.links.isOpen link :=
    fun link hlt => isOpen_eq_of_ends hlt hends rfl
  refine of_live (fun hn => ⟨fun a link h => ?_, fun link h => ?_⟩) hends
    (fun link hlt ho => hopen link hlt ▸ ho) (fun a link h ho => ?_) (List.Subset.refl _)
  · exact Nat.lt_of_lt_of_le (hn.cached a link h) hends.length_le
  · exact Nat.lt_of_lt_of_le (hn.closed link h) hends.length_le
  · exact live?_eq_some_iff.mpr ⟨(live?_eq_some_iff.mp h).1, ho⟩

theorem close (n : Node) (link : LinkId) : Keeps n (n.close link) := by
  have hends : (n.close link).links.ends = n.links.ends := Links.ends_close link
  refine of_live (fun hn => ⟨fun a other h => ?_, fun other h => ?_⟩) (hends ▸ List.prefix_refl _)
    (fun other _ ho => Links.isOpen_of_close ho) (fun a other h ho => ?_) (List.Subset.refl _)
  · rw [hends]
    exact hn.cached a other h
  · rw [hends]
    simp only [Node.close, Links.close] at h
    split at h
    · next hopen =>
      rcases List.mem_append.mp h with h | h
      · exact hn.closed other h
      · exact List.mem_singleton.mp h ▸ (Links.isOpen_iff.mp hopen).1
    · exact hn.closed other h
  · exact live?_eq_some_iff.mpr ⟨(live?_eq_some_iff.mp h).1, ho⟩

/-- The cache lets go of a connection as it closes. -/
theorem leaveRegistry (n : Node) : Keeps n n.leaveRegistry := by
  unfold Node.leaveRegistry
  split
  · next link hlink =>
    have hclose := close n link
    refine of_live (fun hn => ⟨fun a other h => ?_, (hclose.rooted hn).closed⟩) hclose.ends
      hclose.open_of_open (fun a other h ho => live?_eq_some_iff.mpr ⟨?_, ho⟩) (List.Subset.refl _)
    · exact (hclose.rooted hn).cached a other (Cache.get?_of_erase h).2
    · have hcached := (live?_eq_some_iff.mp h).1
      refine (Cache.get?_erase_of_ne _ _ fun ha => ?_).trans hcached
      -- what was live under the registry's address is what closes
      rw [ha, hlink] at hcached
      cases hcached
      exact absurd ((Links.isOpen_close_self n.links link).symm.trans ho) Bool.false_ne_true
  · exact refl n

/-! ### Handlers -/

theorem registrationStatus (n : Node) (status : Int32) (info : String) :
    Keeps n (n.registrationStatus status info) := by
  unfold Node.registrationStatus
  split
  · exact (notice n info).trans (of_same rfl rfl rfl)
  · split
    · next id _ =>
      let named : Node := { n with topology := { n.topology with id := some id } }
      have hnamed : Keeps n named := of_same rfl rfl rfl
      exact hnamed.trans ((notice named info).trans (of_same rfl rfl rfl))
    · exact of_same rfl rfl rfl

theorem deregistrationStatus (n : Node) (status : Int32) (info : String) :
    Keeps n (n.deregistrationStatus status info) := by
  have hnotice := notice n info
  unfold Node.deregistrationStatus
  simp only
  split
  · exact hnotice.trans (of_same rfl rfl rfl)
  · have hgone : Keeps (n.notice info) { n.notice info with topology := .none } := of_same rfl rfl rfl
    exact (hnotice.trans hgone).trans ((leaveRegistry _).trans (of_same rfl rfl rfl))

/-- No address with a live connection is dialed. -/
theorem takeUp (n : Node) (link : LinkId) (table : FingerTable) (nodeIds : List NodeId) :
    Keeps n (n.takeUp link table nodeIds) := by
  have hlearned : Keeps n (n.learn table nodeIds) := of_same rfl rfl rfl
  refine ⟨fun hn => ⟨hn.cached, hn.closed⟩, hlearned.ends, hlearned.open_of_open, hlearned.live,
    fun a other h ho => ⟨hlearned.live a other h.live ho, fun s hs ha => ?_⟩⟩
  rw [takeUp_eq] at hs
  rcases List.mem_append.mp hs with hs | hs
  · exact h.undialed s hs ha
  · rw [List.mem_singleton.mp hs] at ha
    have hnone := (mem_missing.mp ha).2
    rw [h.live] at hnone
    cases hnone

theorem initiateTask (n : Node) (draws : Draws) (count : UInt32) :
    Keeps n (n.initiateTask draws count) := by
  cases hid : n.topology.id with
  | none =>
    simp only [Node.initiateTask, hid]
    exact of_same rfl rfl rfl
  | some id => exact of_traffic (initiateTask_traffic hid draws count)

theorem packetArrived (n : Node) (p : Packet) : Keeps n (n.packetArrived p) := by
  obtain ⟨c, d, q, htraffic⟩ := packetArrived_traffic n p
  exact of_traffic htraffic

theorem summarise (n : Node) (link : LinkId) : Keeps n (n.summarise link) := by
  unfold Node.summarise
  split
  · exact of_same rfl rfl rfl
  · simp only
    split <;> exact of_same rfl rfl rfl

theorem exit (n : Node) : Keeps n n.exit.1 := by
  unfold Node.exit
  split
  · exact refl n
  · split
    · exact refl n
    · exact of_same rfl rfl rfl

end Keeps

/-! ### What is live -/

variable {reaches : PeerAddress → Bool} {as : List PeerAddress} {a : PeerAddress}

/-- Dialing others, or without success, makes no difference to what is live under an address. -/
theorem live?_dialEach_of_not_mem (hn : n.Rooted) (h : a ∉ as.filter reaches) :
    (dialEach reaches as n).1.live? a = n.live? a := by
  have hlinks := links_dialEach reaches as n
  unfold live?
  rw [get?_dialEach_of_not_mem h]
  cases hcached : n.cache.get? a with
  | none => rfl
  | some link =>
    have hopen : (dialEach reaches as n).1.links.isOpen link = n.links.isOpen link :=
      isOpen_eq_of_ends (hn.cached a link hcached)
        (by rw [hlinks]; exact List.prefix_append _ _) (by rw [hlinks])
    rw [Option.filter_some, Option.filter_some, hopen]

/-- An address that is dialed with success has a new connection, and it is live. -/
theorem live?_dialEach_of_mem (hn : n.Rooted) (h : a ∈ as.filter reaches) :
    ∃ link, n.links.ends.length ≤ link ∧ (dialEach reaches as n).1.live? a = some link ∧
      (dialEach reaches as n).1.links.end? link = some (.dialed a) := by
  obtain ⟨link, hnew, hcached, hend⟩ := get?_dialEach_of_mem h n
  have hclosed : (dialEach reaches as n).1.links.closed = n.links.closed := by
    rw [links_dialEach]
  refine ⟨link, hnew, live?_eq_some_iff.mpr ⟨hcached, Links.isOpen_iff.mpr ⟨?_, ?_⟩⟩, hend⟩
  · exact Links.end?_isSome_iff.mp (Option.isSome_of_eq_some hend)
  · rw [hclosed]
    exact fun hmem => Nat.not_le_of_lt (hn.closed link hmem) hnew

/-- The connections that dials have made are made, and closed are those that were. -/
theorem rooted_dialEach (hn : n.Rooted) (reaches : PeerAddress → Bool) (as : List PeerAddress) :
    (dialEach reaches as n).1.Rooted := by
  have hlinks := links_dialEach reaches as n
  have hends : n.links.ends <+: (dialEach reaches as n).1.links.ends := by
    rw [hlinks]
    exact List.prefix_append _ _
  refine ⟨fun a link h => ?_, fun link h => ?_⟩
  · by_cases ha : a ∈ as.filter reaches
    · obtain ⟨made, -, hmade, hend⟩ := get?_dialEach_of_mem ha n
      obtain rfl := Option.some.inj (hmade.symm.trans h)
      exact Links.end?_isSome_iff.mp (Option.isSome_of_eq_some hend)
    · have hold := (get?_dialEach_of_not_mem ha n).symm.trans h
      exact Nat.lt_of_lt_of_le (hn.cached a link hold) hends.length_le
  · rw [hlinks] at h
    exact Nat.lt_of_lt_of_le (hn.closed link h) hends.length_le

/-! ### The end of a setup -/

theorem kept_sendToRegistry (n : Node) (m : Message) :
    n.sendToRegistry m = { n with effects := (n.sendToRegistry m).effects } := by
  unfold sendToRegistry
  split <;> rfl

theorem kept_reportSetup (n : Node) (outcome : Int32 × String) :
    n.reportSetup outcome = { n with
      state := .setupReported (outcome.1 != failureStatus)
      effects := (n.reportSetup outcome).effects } := by
  rw [reportSetup_eq, kept_sendToRegistry]
  rfl

theorem sent_reportSetup (n : Node) (outcome : Int32 × String) :
    Shows sent? n (n.reportSetup outcome)
      (Option.map (fun link => (link, .overlaySetupStatus outcome.1 outcome.2))
        n.registry?).toList := by
  have hconnected : Shows sent? n (n.connect outcome) [] := .setState _ _ _ fun _ => rfl
  have htold := sent_sendToRegistry (n.connect outcome) (.overlaySetupStatus outcome.1 outcome.2)
  have hreported : Shows sent? ((n.connect outcome).sendToRegistry
      (.overlaySetupStatus outcome.1 outcome.2)) (n.reportSetup outcome) [] :=
    .setState _ _ _ fun _ => rfl
  have hall := (hconnected.unseen htold).trans hreported
  rwa [List.append_nil] at hall

/-- No finger is out of reach that was not before. -/
theorem refused_reportSetup (n : Node) (outcome : Int32 × String) :
    Shows refused? n (n.reportSetup outcome) [] := by
  have hconnected : Shows refused? n (n.connect outcome) [] := .setState _ _ _ fun _ => rfl
  have htold : Shows refused? (n.connect outcome)
      ((n.connect outcome).sendToRegistry (.overlaySetupStatus outcome.1 outcome.2)) [] := by
    unfold sendToRegistry
    split <;> exact .emit_unseen _ rfl
  exact hconnected.unseen (htold.unseen (.setState _ _ _ fun _ => rfl))

variable {k : Nat} {s : Setup}

/-- The end of a setup, told by the connections that its dials have made. -/
theorem kept_finishSetup (hk : n.setups[k]? = some s) (reaches : PeerAddress → Bool) :
    n.finishSetup reaches k = { n with
      cache := (n.dialed reaches k s).1.cache
      links := (n.dialed reaches k s).1.links
      state := .setupReported (s.established reaches)
      setups := n.setups.eraseIdx k
      effects := (n.finishSetup reaches k).effects } := by
  have hestablished : ((setupOutcome s.id s.fingers (n.dialed reaches k s).2).1 != failureStatus) =
      s.established reaches := (outcome_dialEach reaches s _).1
  have hdialed : (n.dialed reaches k s).1 = { n with
      cache := (n.dialed reaches k s).1.cache
      links := (n.dialed reaches k s).1.links
      setups := n.setups.eraseIdx k
      effects := (n.dialed reaches k s).1.effects } := kept_dialEach reaches s.dials _
  rw [finishSetup_of_some hk]
  refine (kept_reportSetup _ _).trans ?_
  rw [hestablished, hdialed]

theorem links_finishSetup (hk : n.setups[k]? = some s) (reaches : PeerAddress → Bool) :
    (n.finishSetup reaches k).links =
      { n.links with ends := n.links.ends ++ (s.dials.filter reaches).map .dialed } := by
  rw [kept_finishSetup hk]
  exact links_dialEach reaches s.dials { n with setups := n.setups.eraseIdx k }

/-- The end of a setup closes nothing. -/
theorem isOpen_finishSetup {link : LinkId} (hmade : link < n.links.ends.length)
    (reaches : PeerAddress → Bool) (k : Nat) :
    (n.finishSetup reaches k).links.isOpen link = n.links.isOpen link := by
  cases hk : n.setups[k]? with
  | none => rw [finishSetup_of_none hk]
  | some s =>
    have hlinks := links_finishSetup hk reaches
    refine isOpen_eq_of_ends hmade ?_ (by rw [hlinks])
    rw [hlinks]
    exact List.prefix_append _ _

/-- A setup ends with its dials, and then only reports. -/
theorem retains_finishSetup (n : Node) (reaches : PeerAddress → Bool) (k : Nat) :
    Retains n (n.finishSetup reaches k) := by
  cases hk : n.setups[k]? with
  | none =>
    rw [finishSetup_of_none hk]
    exact (Keeps.refl n).retains
  | some s =>
    let pruned : Node := { n with setups := n.setups.eraseIdx k }
    let dialed := (n.dialed reaches k s).1
    have hpruned : n.Rooted → pruned.Rooted := fun hn => ⟨hn.cached, hn.closed⟩
    have hkept := kept_finishSetup hk reaches
    have hlive : ∀ a, (n.finishSetup reaches k).live? a = dialed.live? a := fun a => by
      rw [hkept]
      rfl
    refine ⟨fun hn => ?_, ?_, fun link hlt ho => ?_, fun hn a link h _ => ?_,
      fun hn a link h _ => ⟨?_, fun t ht => ?_⟩⟩
    · have hdialed : dialed.Rooted := rooted_dialEach (hpruned hn) reaches s.dials
      rw [hkept]
      exact ⟨hdialed.cached, hdialed.closed⟩
    · rw [links_finishSetup hk]
      exact List.prefix_append _ _
    · exact (isOpen_finishSetup hlt reaches k).symm.trans ho
    · rw [hlive]
      by_cases ha : a ∈ s.dials.filter reaches
      · obtain ⟨made, -, hmade, -⟩ := live?_dialEach_of_mem (hpruned hn) ha
        exact Option.isSome_of_eq_some hmade
      · exact Option.isSome_of_eq_some ((live?_dialEach_of_not_mem (hpruned hn) ha).trans h)
    · have hnot : a ∉ s.dials.filter reaches := fun ha =>
        h.undialed s (List.mem_of_getElem? hk) (List.mem_filter.mp ha).1
      rw [hlive]
      exact (live?_dialEach_of_not_mem (hpruned hn) hnot).trans h.live
    · rw [hkept] at ht
      exact h.undialed t (List.mem_of_mem_eraseIdx ht)

/-! ### Actions and runs -/

/-- **Every action retains the connections of a node.** -/
theorem retains_act (n : Node) (a : Action) : Retains n (n.act a) := by
  cases a with
  | accepted shown => exact (Keeps.accept n shown).retains
  | closed link => exact (Keeps.close n link).retains
  | exited => exact (Keeps.exit n).retains
  | dialed reaches k => exact retains_finishSetup n reaches k
  | received draws link m =>
    refine Keeps.retains ?_
    cases hread : n.read? link with
    | none =>
      rw [act_received_of_unread hread]
      exact .refl n
    | some far =>
      rw [act_received hread]
      cases m with
      | registrationStatus status info => exact .registrationStatus n status info
      | deregistrationStatus status info => exact .deregistrationStatus n status info
      | nodeManifest table nodeIds => exact .takeUp n link table nodeIds
      | taskInitiate count => exact .initiateTask n draws count
      | dataPacket p => exact .packetArrived n p
      | trafficSummaryRequest => exact .summarise n link
      | nodeRegisters | nodeDeregisters | overlaySetupStatus | taskFinished
      | trafficSummaryReport => exact .of_same rfl rfl rfl

/-- No connection opens again in a run. -/
theorem open_run {link : LinkId} (hlt : link < n.links.ends.length) (as : List Action)
    (ho : (n.run as).links.isOpen link = true) : n.links.isOpen link = true := by
  induction as generalizing n with
  | nil => exact ho
  | cons a as ih =>
    have hact := retains_act n a
    exact hact.open_of_open link hlt (ih (Nat.lt_of_lt_of_le hlt hact.ends.length_le) ho)

theorem rooted_of_run (hn : n.Rooted) (as : List Action) : (n.run as).Rooted := by
  induction as generalizing n with
  | nil => exact hn
  | cons a as ih => exact ih ((retains_act n a).rooted hn)

/-- Every node that comes about is rooted. -/
theorem rooted_run (config : NodeConfig) (address : PeerAddress) (as : List Action) :
    ((join config address).run as).Rooted := by
  let dialed := (unconnected config address).dial config.registry
  have hunconnected : (unconnected config address).Rooted :=
    ⟨fun a link h => (nomatch h), fun link h => absurd h List.not_mem_nil⟩
  have hdialed : dialed.Rooted :=
    rooted_dialEach hunconnected (fun _ => true) [config.registry]
  have hjoined : Keeps dialed (join config address) := by
    rw [join_eq]
    exact (Keeps.sendToRegistry dialed _).trans (.of_same rfl rfl rfl)
  exact rooted_of_run (hjoined.rooted hdialed) as

/-- A live connection that is open at the end of the run was open at every step. -/
theorem open_act_of_run {link : LinkId} (hlive : n.live? a = some link) (b : Action)
    (bs : List Action) (ho : (n.run (b :: bs)).links.isOpen link = true) :
    (n.act b).links.isOpen link = true := by
  have hlt := (Links.isOpen_iff.mp (live?_eq_some_iff.mp hlive).2).1
  exact open_run (Nat.lt_of_lt_of_le hlt (retains_act n b).ends.length_le) bs ho

/-- **An address that has a live connection has one** as long as none of those that it has on the
way closes. -/
theorem live_run (hn : n.Rooted) (h : (n.live? a).isSome) (bs : List Action)
    (hopen : ∀ before, before <+: bs → ∀ link, (n.run before).live? a = some link →
      (n.run bs).links.isOpen link = true) : ((n.run bs).live? a).isSome := by
  induction bs generalizing n with
  | nil => exact h
  | cons b bs ih =>
    obtain ⟨link, hlink⟩ := Option.isSome_iff_exists.mp h
    have ho := open_act_of_run hlink b bs (hopen [] (List.nil_prefix) link hlink)
    have hact := retains_act n b
    refine ih (hact.rooted hn) (hact.live hn a link hlink ho) fun before hbefore => ?_
    exact hopen (b :: before) (List.cons_prefix_cons.mpr ⟨rfl, hbefore⟩)

/-- A connection that no setup replaces is live until it closes. -/
theorem held_run {link : LinkId} (hn : n.Rooted) (h : n.Held a link) (bs : List Action)
    (ho : (n.run bs).links.isOpen link = true) : (n.run bs).Held a link := by
  induction bs generalizing n with
  | nil => exact h
  | cons b bs ih =>
    have hact := retains_act n b
    exact ih (hact.rooted hn) (hact.held hn a link h (open_act_of_run h.live b bs ho)) ho

/-! ### What becomes of a manifest -/

/-- From `n` to `n'`, a manifest is taken up that came in on `link`: the setup `s` is under way, and
dials the addresses of the fingers that have no live connection, each once. -/
structure TakesUp (n : Node) (link : LinkId) (table : FingerTable) (nodeIds : List NodeId)
    (s : Setup) (n' : Node) : Prop where
  link : s.link = link
  id : s.id = n.topology.id
  once : s.dials.Nodup
  dialed : ∀ a, a ∈ s.dials ↔ a ∈ table.entries.map Entry.address ∧ n.live? a = none
  kept : n' = { n with
    topology := ⟨n.topology.id, table, nodeIds⟩
    state := .manifestReceived
    setups := n.setups ++ [s]
    effects := .logged (.state n.topology.id .manifestReceived "manifest received") :: n.effects }

/-- From `n` to `n'`, the `k`-th setup `s` is carried out.  A connection is made to each address that
it dials and that can be reached, and is live under that address, and nothing else becomes live or
ceases to be; the registry is told once, if it can be reached, whether the setup is established, and
nothing else is sent. -/
structure CarriesOut (n : Node) (reaches : PeerAddress → Bool) (k : Nat) (s : Setup) (n' : Node) :
    Prop where
  made : n'.links =
    { n.links with ends := n.links.ends ++ (s.dials.filter reaches).map .dialed }
  refused : Shows refused? n n'
    ((s.dials.filter fun a => !reaches a).map fun a => (a, refusedDial a))
  reached : ∀ a ∈ s.dials, reaches a = true → ∃ link, n.links.ends.length ≤ link ∧
    n'.live? a = some link ∧ n'.links.end? link = some (.dialed a)
  others : ∀ a, ¬ (a ∈ s.dials ∧ reaches a = true) → n'.live? a = n.live? a
  success : s.established reaches = true ↔ s.id.isSome ∧ ∀ a ∈ s.dials, reaches a = true
  reported : Shows sent? n n'
    (Option.map (fun link => (link, .overlaySetupStatus (setupStatus s.id (s.established reaches))
      (setupOutcome s.id s.fingers ((s.dials.filter fun a => !reaches a).map refusedDial)).2))
      n'.registry?).toList
  kept : n' = { n with
    cache := n'.cache
    links := n'.links
    state := .setupReported (s.established reaches)
    setups := n.setups.eraseIdx k
    effects := n'.effects }

variable {table : FingerTable} {nodeIds : List NodeId} {link : LinkId}

theorem takesUp_hear (n : Node) (draws : Draws) (link : LinkId) (far : Endpoint)
    (table : FingerTable) (nodeIds : List NodeId) :
    n.TakesUp link table nodeIds (n.setup link table)
      (n.hear draws link far (.nodeManifest table nodeIds)) :=
  ⟨rfl, rfl, (nodup_fingerAddresses table).filter _, fun _ => mem_missing, rfl⟩

theorem carriesOut_finishSetup (hn : n.Rooted) (hk : n.setups[k]? = some s)
    (reaches : PeerAddress → Bool) : n.CarriesOut reaches k s (n.finishSetup reaches k) := by
  let pruned : Node := { n with setups := n.setups.eraseIdx k }
  let dialed := (n.dialed reaches k s).1
  let failures := (s.dials.filter fun a => !reaches a).map refusedDial
  let outcome := setupOutcome s.id s.fingers failures
  have hpruned : pruned.Rooted := ⟨hn.cached, hn.closed⟩
  have hshown : ∀ {β : Type} {f : NodeEffect → Option β}, Shows f n pruned [] := .of_same rfl
  have hkept := kept_finishSetup hk reaches
  have hlinks : (n.finishSetup reaches k).links = dialed.links := by rw [hkept]
  have hlive : ∀ a, (n.finishSetup reaches k).live? a = dialed.live? a := fun a => by
    rw [hkept]
    rfl
  have hreported : n.finishSetup reaches k = dialed.reportSetup outcome := by
    have hfailures : (n.dialed reaches k s).2 = failures := failures_dialEach reaches s.dials pruned
    rw [finishSetup_of_some hk, hfailures]
  refine ⟨?_, ?_, fun a ha hr => ?_, fun a ha => ?_, ?_, ?_, ?_⟩
  · exact links_finishSetup hk reaches
  · have hrefused := hshown.unseen (refused_dialEach reaches s.dials pruned)
    have hall := hrefused.trans (refused_reportSetup dialed outcome)
    rwa [List.append_nil, ← hreported] at hall
  · rw [hlive, hlinks]
    exact live?_dialEach_of_mem hpruned (List.mem_filter.mpr ⟨ha, hr⟩)
  · rw [hlive]
    exact live?_dialEach_of_not_mem hpruned fun hmem => ha (List.mem_filter.mp hmem)
  · rw [Setup.established, Bool.and_eq_true, List.all_eq_true]
  · have hquiet := hshown.unseen (sent_dialEach reaches s.dials pruned)
    have hall := hquiet.unseen (sent_reportSetup dialed outcome)
    have hstatus : outcome.1 = setupStatus s.id (s.established reaches) := by
      rw [Setup.established, ← isEmpty_refused]
      exact (setupOutcome_fst s.id s.fingers failures).2
    have hconfig : dialed.config = n.config := config_dialEach reaches s.dials pruned
    have hregistry : registry? (n.finishSetup reaches k) = dialed.registry? := by
      unfold registry?
      rw [hlive, hconfig, hkept]
    rwa [hstatus, ← hregistry, ← hreported] at hall
  · rw [hkept]

/-- What the dials of a setup have reached is live, and so is what was. -/
theorem CarriesOut.live (h : n.CarriesOut reaches k s n') (he : s.established reaches = true)
    (hdial : a ∈ s.dials ∨ (n.live? a).isSome) : (n'.live? a).isSome := by
  by_cases hmem : a ∈ s.dials
  · obtain ⟨link, -, hlive, -⟩ := h.reached a hmem ((h.success.mp he).2 a hmem)
    exact Option.isSome_of_eq_some hlive
  · rw [h.others a fun hd => hmem hd.1]
    exact hdial.resolve_left hmem

/-! ### Fingers with live connections -/

/-- Every finger of a table has a live connection; and as long as the node goes by that table, and
there is any finger at all, every packet is handed on. -/
structure Linked (n : Node) (table : FingerTable) : Prop where
  live : ∀ e ∈ table.entries, (n.live? e.address).isSome
  forward : n.topology.table = table → table.entries ≠ [] → ∀ me p, ∃ link,
    n.forward me p = (n.emit (.sent link (.dataPacket p)), true)

/-- In a run, no connection closes that is live under the address of a finger at any time. -/
def Uncut (n : Node) (table : FingerTable) (as : List Action) : Prop :=
  ∀ before, before <+: as → ∀ e ∈ table.entries, ∀ link,
    (n.run before).live? e.address = some link → (n.run as).links.isOpen link = true

theorem linked_of_live (h : ∀ e ∈ table.entries, (n.live? e.address).isSome) : n.Linked table := by
  refine ⟨h, fun htable hne me p => ?_⟩
  obtain ⟨hop, hhop⟩ := Option.ne_none_iff_exists'.mp
    (FingerTable.nextHop_eq_none_iff.not.mpr (htable ▸ hne) : n.topology.table.nextHop p.dst ≠ none)
  have hmem : hop.entry ∈ table.entries := htable ▸ FingerTable.nextHop_mem hhop
  obtain ⟨link, hlink⟩ := Option.isSome_iff_exists.mp (h hop.entry hmem)
  exact ⟨link, forward_of_route (Option.bind_eq_some_iff.mpr ⟨hop, hhop, hlink⟩)⟩

theorem run_append (n : Node) (as bs : List Action) : n.run (as ++ bs) = (n.run as).run bs :=
  List.foldl_append

/-- Every finger is linked once a setup has succeeded, as long as no connection to one closes: some
were when the setup began, and the others are when it ends. -/
theorem linked_of_established {n' : Node} (hn' : n'.Rooted)
    (htaken : n.TakesUp link table nodeIds s n') (as : List Action)
    (hk : (n'.run as).setups[k]? = some s) {reaches : PeerAddress → Bool}
    (he : s.established reaches = true) (bs : List Action)
    (hopen : n'.Uncut table (as ++ .dialed reaches k :: bs)) :
    (n'.run (as ++ .dialed reaches k :: bs)).Linked table := by
  refine linked_of_live fun e hmem => ?_
  by_cases hdial : e.address ∈ s.dials
  · have hcarried := carriesOut_finishSetup (rooted_of_run hn' as) hk reaches
    have hlive := hcarried.live he (.inl hdial)
    have hroots := (retains_act (n'.run as) (.dialed reaches k)).rooted (rooted_of_run hn' as)
    have hsplit : ∀ cs, n'.run (as ++ .dialed reaches k :: cs) =
        ((n'.run as).finishSetup reaches k).run cs := fun cs => run_append n' as _
    rw [hsplit]
    refine live_run hroots hlive bs fun before hbefore onward h => ?_
    have hprefix : as ++ .dialed reaches k :: before <+: as ++ .dialed reaches k :: bs :=
      List.prefix_append_right_inj as |>.mpr (List.cons_prefix_cons.mpr ⟨rfl, hbefore⟩)
    have hstill := hopen _ hprefix e hmem onward
    rw [hsplit, hsplit] at hstill
    exact hstill h
  · have hlive : n.live? e.address ≠ none := fun hnone =>
      hdial ((htaken.dialed e.address).mpr ⟨List.mem_map_of_mem hmem, hnone⟩)
    have hsame : n'.live? e.address = n.live? e.address := by
      rw [htaken.kept]
      rfl
    refine live_run hn' (hsame ▸ Option.isSome_iff_ne_none.mpr hlive) _ fun before hbefore => ?_
    exact hopen before hbefore e hmem

/-- The end of a setup cuts nothing. -/
theorem uncut_dialed (n : Node) (table : FingerTable) (reaches : PeerAddress → Bool) (k : Nat) :
    n.Uncut table [.dialed reaches k] := by
  intro before hbefore e _ link hlive
  have hopen := (live?_eq_some_iff.mp hlive).2
  cases before with
  | nil => exact (isOpen_finishSetup (Links.isOpen_iff.mp hopen).1 reaches k).trans hopen
  | cons b before =>
    obtain ⟨rfl, hnil⟩ := List.cons_prefix_cons.mp hbefore
    obtain rfl := List.prefix_nil.mp hnil
    exact hopen

/-- **What becomes of a manifest.**  A node that takes one up dials each finger address that has no
live connection once.  When the dials have ended, whatever has happened meanwhile, it reports the
setup as established exactly if it had an identifier when it took the manifest up and every dial
succeeded, and sends nothing but that report.  If it is established, every finger has a live
connection, until one of these closes; and so every packet goes on through the table, until it is
replaced. -/
theorem manifest_carried_out (hn : n.Rooted) (draws : Draws) (link : LinkId) (far : Endpoint)
    (table : FingerTable) (nodeIds : List NodeId) :
    let s := n.setup link table
    let taken := n.hear draws link far (.nodeManifest table nodeIds)
    n.TakesUp link table nodeIds s taken ∧
    (∀ reaches k as, (taken.run as).setups[k]? = some s →
      (taken.run as).CarriesOut reaches k s (taken.run (as ++ [.dialed reaches k])) ∧
      (s.established reaches = true → ∀ bs, taken.Uncut table (as ++ .dialed reaches k :: bs) →
        (taken.run (as ++ .dialed reaches k :: bs)).Linked table)) ∧
    ∀ reaches,
      let n' := n.handle reaches draws link far (.nodeManifest table nodeIds)
      taken.setups[n.setups.length]? = some s ∧
      n' = taken.run [.dialed reaches n.setups.length] ∧
      (s.established reaches = true → n'.Linked table ∧
        ((∀ t ∈ n.setups, ∀ e ∈ table.entries, e.address ∉ t.dials) →
          ∀ bs, (∀ e ∈ table.entries, ∀ onward, n'.live? e.address = some onward →
            (n'.run bs).links.isOpen onward = true) → (n'.run bs).Linked table)) := by
  intro s taken
  have htaken : n.TakesUp link table nodeIds s taken := takesUp_hear n draws link far table nodeIds
  have hroots : taken.Rooted := (Keeps.takeUp n link table nodeIds).rooted hn
  have hlast : taken.setups[n.setups.length]? = some s := (n.setups_takeUp link table nodeIds).1
  refine ⟨htaken, fun reaches k as hk => ⟨?_, fun he bs hopen => ?_⟩, fun reaches => ?_⟩
  · rw [run_append]
    exact carriesOut_finishSetup (rooted_of_run hroots as) hk reaches
  · exact linked_of_established hroots htaken as hk he bs hopen
  · intro n'
    refine ⟨hlast, rfl, fun he => ?_⟩
    have hlinked : n'.Linked table := linked_of_established hroots htaken [] hlast he []
      (uncut_dialed taken table reaches n.setups.length)
    refine ⟨hlinked, fun hothers bs hopen => linked_of_live fun e hmem => ?_⟩
    obtain ⟨onward, hlive⟩ := Option.isSome_iff_exists.mp (hlinked.live e hmem)
    have hsetups : n'.setups = n.setups :=
      (congrArg Node.setups (kept_finishSetup hlast reaches) : n'.setups = _).trans
        (n.setups_takeUp link table nodeIds).2
    have hheld : n'.Held e.address onward := ⟨hlive, fun t ht => hothers t (hsetups ▸ ht) e hmem⟩
    have hroots' := (retains_finishSetup taken reaches n.setups.length).rooted hroots
    exact Option.isSome_of_eq_some (held_run hroots' hheld bs (hopen e hmem onward hlive)).live

/-- Of four fingers at two addresses, a node is connected to two, and dials the address of the other
two once.  Meanwhile a peer connects; then the dial succeeds, another peer connects, and no packet is
dropped. -/
theorem manifest_carried_out_halfway :
    let table : FingerTable := ⟨[⟨9, ⟨"127.0.0.1", 7002⟩⟩, ⟨11, ⟨"127.0.0.1", 7002⟩⟩,
      ⟨70, ⟨"127.0.0.1", 7070⟩⟩, ⟨71, ⟨"127.0.0.1", 7070⟩⟩], by decide⟩
    let reaches : PeerAddress → Bool := fun a => a.port == 7070
    let s : Setup := ⟨1, some 5, 2, [⟨"127.0.0.1", 7070⟩]⟩
    let taken := halfway.hear (.ofList []) 1 (.accepted "127.0.0.1:40000")
      (.nodeManifest table [5, 9, 11, 70, 71])
    let between : List Action := [.accepted "127.0.0.1:40001"]
    let whole := between ++ .dialed reaches 0 :: [.accepted "127.0.0.1:40002"]
    halfway.Rooted ∧ halfway.TakesUp 1 table [5, 9, 11, 70, 71] s taken ∧
    (taken.run between).setups[0]? = some s ∧
    (taken.run between).CarriesOut reaches 0 s (taken.run (between ++ [.dialed reaches 0])) ∧
    s.established reaches = true ∧ taken.Uncut table whole ∧
    (taken.run whole).live? ⟨"127.0.0.1", 7002⟩ = some 2 ∧
    (taken.run whole).live? ⟨"127.0.0.1", 7070⟩ = some 4 ∧ (taken.run whole).Linked table := by
  intro table reaches s taken between whole
  have hrooted : halfway.Rooted := rooted_run _ _ _
  obtain ⟨htaken, hends, -⟩ := manifest_carried_out hrooted (.ofList []) 1
    (.accepted "127.0.0.1:40000") table [5, 9, 11, 70, 71]
  have hk : (taken.run between).setups[0]? = some s := by decide
  obtain ⟨hcarried, hlinked⟩ := hends reaches 0 between hk
  have hestablished : s.established reaches = true := by decide
  have hopen : ∀ before ∈ whole.inits, ∀ e ∈ table.entries,
      ((taken.run before).live? e.address).all (taken.run whole).links.isOpen = true := by decide
  have huncut : taken.Uncut table whole := fun before hbefore e hmem link h => by
    have hall := hopen before ((List.mem_inits _ _).mpr hbefore) e hmem
    rwa [h] at hall
  exact ⟨hrooted, htaken, hk, hcarried, hestablished, huncut, by decide, by decide,
    hlinked hestablished _ huncut⟩

end RingOverlay.Node
