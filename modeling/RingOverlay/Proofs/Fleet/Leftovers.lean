import RingOverlay.Proofs.Fleet.Passage

/-!
# Fleet — what a run leaves behind

A summary leaves nothing of what a node has counted.  So if every run that was started has been seen
through to its report, a node that is reached and not counting has nothing left over, and no summary
is under way that was not asked for in the present run: the fleet is `Clean`.  While summaries come
in, each that is still to come is the only one in its name (`Outstanding`), so the last that the
registry waits for is the last there is.

Only an abandoned run can spoil this, for then nobody asks for what was counted in it.

* `Clean.act`: **an action that abandons no run keeps a fleet clean.**
-/

namespace RingOverlay.Fleet

open Registry (Sound)

/-- What node `k` will have counted once it has taken all that is in flight to it. -/
def residue (f : Fleet) (k : Nat) : Nat := (f.prospect k).account.sent

/-- Whether a run is abandoned. -/
def abandons (f : Fleet) (x : Action) : Bool :=
  f.registry.phase.isRun && (f.act x).registry.phase == .idle

/-- Node `k` may be counting what it sends. -/
def Counts (f : Fleet) (place : Nat → PeerAddress) (k : Nat) : Prop :=
  (f.registry.phase = .running ∨ f.registry.phase = .draining) ∧
    place k ∈ f.registry.participants

/-- Summaries are still to come from some of those who were asked, one from each. -/
structure Outstanding (asked : List NodeId) (f : Fleet) : Prop where
  nodup : asked.Nodup
  expected : f.registry.progress.expected = asked.length
  collected : ∀ s ∈ f.registry.collector.summaries, s.id ∈ asked
  ascending : f.registry.collector.summaries.Pairwise fun s t => s.id < t.id
  single : ∀ k, (f.prospect k).pending.length ≤ 1
  pending : ∀ k, ∀ e ∈ (f.prospect k).pending,
    e.1 ∈ asked ∧ ∀ s ∈ f.registry.collector.summaries, s.id ≠ e.1
  apart : ∀ j k, ∀ d ∈ (f.prospect j).pending, ∀ e ∈ (f.prospect k).pending, d.1 = e.1 → j = k

/-- Nothing is left over from earlier runs. -/
structure Clean (place : Nat → PeerAddress) (f : Fleet) : Prop where
  settled : f.registry.phase ≠ .collecting → ∀ k, (f.prospect k).pending = []
  rested : ∀ k, f.registry.ledger.Reaches place k → ¬ f.Counts place k → f.residue k = 0
  outstanding : f.registry.phase = .collecting → ∃ asked, Outstanding asked f

variable {place : Nat → PeerAddress} {size : Nat} {f g : Fleet} {x : Action} {asked : List NodeId}
  {k : Nat} {s : Summary}

theorem clean_opened (place : Nat → PeerAddress) (config : RegistryConfig) (draws : Draws) :
    Clean place (opened config draws) where
  settled _ _ := rfl
  rested _ h := nomatch h.1
  outstanding h := nomatch h

/-! ### Summaries that come in -/

theorem Outstanding.passes (h : Outstanding asked f) (hsame : Passes place f g)
    (hexpected : g.registry.progress.expected = f.registry.progress.expected)
    (hcollector : g.registry.collector = f.registry.collector) : Outstanding asked g := by
  have hsub := fun k => (hsame.pending k).subset
  refine ⟨h.nodup, hexpected.trans h.expected, ?_, ?_, fun k => ?_, fun k e he => ?_,
    fun j k d hd e he => h.apart j k d (hsub j hd) e (hsub k he)⟩
  · rw [hcollector]
    exact h.collected
  · rw [hcollector]
    exact h.ascending
  · exact (hsame.pending k).length_le.trans (h.single k)
  · rw [hcollector]
    exact h.pending k e (hsub k he)

section Hearing

variable (h : Outstanding asked f)
  (heard : (f.prospect k).pending = (s.id, s.sent.toNat) :: (g.prospect k).pending)

include h heard

theorem Outstanding.collected_add :
    ∀ t ∈ (f.registry.collector.add s).summaries, t.id ∈ asked := by
  intro t ht
  rcases Collector.mem_of_mem_insert ht with rfl | ht
  · exact (h.pending k (t.id, t.sent.toNat) (heard ▸ List.mem_cons_self)).1
  · exact h.collected t ht

theorem Outstanding.nil_of_heard : (g.prospect k).pending = [] := by
  have hsingle := h.single k
  rw [heard, List.length_cons] at hsingle
  exact List.eq_nil_of_length_eq_zero (Nat.le_zero.mp (Nat.le_of_succ_le_succ hsingle))

variable (others : ∀ j, j ≠ k → (g.prospect j).pending = (f.prospect j).pending)

include others

/-- What is still pending after a summary has come in is in other names. -/
theorem Outstanding.pending_of_heard (j : Nat) {e : NodeId × Nat}
    (he : e ∈ (g.prospect j).pending) : e ∈ (f.prospect j).pending ∧ e.1 ≠ s.id := by
  by_cases hj : j = k
  · obtain rfl := hj
    rw [h.nil_of_heard heard] at he
    cases he
  · rw [others j hj] at he
    refine ⟨he, fun hid => hj ?_⟩
    exact h.apart j k e he (s.id, s.sent.toNat) (heard ▸ List.mem_cons_self) hid

/-- What is still pending is not collected yet. -/
theorem Outstanding.not_collected_add {j : Nat} {e : NodeId × Nat}
    (he : e ∈ (g.prospect j).pending) :
    ∀ t ∈ (f.registry.collector.add s).summaries, t.id ≠ e.1 := by
  obtain ⟨hbefore, hne⟩ := h.pending_of_heard heard others j he
  intro t ht
  rcases Collector.mem_of_mem_insert ht with rfl | ht
  · exact hne.symm
  · exact (h.pending j e hbefore).2 t ht

theorem Outstanding.hears (hcollector : g.registry.collector = f.registry.collector.add s)
    (hexpected : g.registry.progress.expected = f.registry.progress.expected) :
    Outstanding asked g := by
  have hbefore := fun j {e} (he : e ∈ (g.prospect j).pending) =>
    (h.pending_of_heard heard others j he).1
  refine ⟨h.nodup, hexpected.trans h.expected, ?_, ?_, fun j => ?_, fun j e he => ⟨?_, ?_⟩,
    fun i j d hd e he => h.apart i j d (hbefore i hd) e (hbefore j he)⟩
  · rw [hcollector]
    exact h.collected_add heard
  · rw [hcollector]
    exact Collector.pairwise_insert h.ascending
  · by_cases hj : j = k
    · obtain rfl := hj
      rw [h.nil_of_heard heard]
      exact Nat.zero_le 1
    · rw [others j hj]
      exact h.single j
  · exact (h.pending j e (hbefore j he)).1
  · rw [hcollector]
    exact h.not_collected_add heard others he

/-- **When as many have come in as were asked for, none is still to come.** -/
theorem Outstanding.nothing_left
    (hall : ¬ (f.registry.collector.add s).size < f.registry.progress.expected) (j : Nat) :
    (g.prospect j).pending = [] := by
  refine List.eq_nil_iff_forall_not_mem.mpr fun e he => hall ?_
  let ids := (f.registry.collector.add s).summaries.map Summary.id
  have hids : ids.Nodup :=
    List.pairwise_map.mpr ((Collector.pairwise_insert h.ascending).imp fun hlt => Fin.ne_of_lt hlt)
  have hfresh : e.1 ∉ ids := by
    intro hmem
    obtain ⟨t, ht, hid⟩ := List.mem_map.mp hmem
    exact h.not_collected_add heard others he t ht hid
  have hsub : e.1 :: ids ⊆ asked := by
    refine List.cons_subset.mpr ⟨(h.pending j e (h.pending_of_heard heard others j he).1).1, ?_⟩
    intro id hid
    obtain ⟨t, ht, rfl⟩ := List.mem_map.mp hid
    exact h.collected_add heard t ht
  have hlength := (List.subperm_of_subset (List.nodup_cons.mpr ⟨hfresh, hids⟩) hsub).length_le
  rw [List.length_cons, List.length_map] at hlength
  rw [h.expected]
  exact hlength

end Hearing

/-! ### Summaries that are asked for -/

/-- Nobody is asked twice. -/
theorem askedNodes_nodup {r : Registry} (h : Sound size [] r.roll) :
    (r.askedNodes.map Entry.id).Nodup := by
  unfold Registry.askedNodes
  cases ho : r.overlay with
  | none =>
    rw [Registry.roster, ho]
    exact .nil
  | some o =>
    obtain ⟨nodes, hover, -, hascend⟩ := h.laidOut o ho
    rw [Registry.roster_of_over ho hover]
    exact List.pairwise_map.mpr ((hascend.filter _).imp fun hlt => Fin.ne_of_lt hlt)

/-- Who takes part is on the roster under the identifier that it is registered under. -/
theorem Agreed.mem_roster (h : Agreed place size f) (hk : f.TakesPart place k) {id : NodeId}
    (he : ⟨id, place k⟩ ∈ f.registry.membership.members) :
    ⟨id, place k⟩ ∈ f.registry.roster := by
  have hsound : Sound size [] f.registry.roll := h.accord.sound
  obtain ⟨o, nodes, ho, hover, hsub, -, hmem⟩ := Registry.over_of_participant hsound hk.1
  obtain ⟨e, hnode, haddress⟩ := List.mem_map.mp hmem
  obtain rfl : e = ⟨id, place k⟩ := hsound.members.eq_of_address (hsub hnode) he haddress
  rw [Registry.roster_of_over ho hover]
  exact hnode

/-- And is asked. -/
theorem Agreed.mem_askedNodes (h : Agreed place size f) (hk : f.TakesPart place k) {id : NodeId}
    (he : ⟨id, place k⟩ ∈ f.registry.membership.members) :
    ⟨id, place k⟩ ∈ f.registry.askedNodes :=
  List.mem_filter.mpr
    ⟨h.mem_roster hk he, Registry.send_snd_iff.mpr ⟨k, reachedOver_of_reaches hk.2⟩⟩

/-- One identifier is one member, at one address, on one connection. -/
theorem Agreed.eq_of_id (h : Agreed place size f) {j : Nat} {id : NodeId}
    (hj : f.registry.ledger.Reaches place j) (hk : f.registry.ledger.Reaches place k)
    (hej : ⟨id, place j⟩ ∈ f.registry.membership.members)
    (hek : ⟨id, place k⟩ ∈ f.registry.membership.members) : j = k := by
  have hsame := h.accord.sound.members.eq_of_id hej hek rfl
  have hcached := hj.1
  rw [show place j = place k from congrArg Entry.address hsame] at hcached
  exact Option.some.inj (hcached.symm.trans hk.1)

/-- What is pending after a request is the summary of a participant, in its own name. -/
theorem Clean.pending_of_asked (h : Clean place f) (ha : Agreed place size f)
    (before : f.registry.phase = .draining)
    (told : ∀ k, f.TakesPart place k → g.prospect k = (f.prospect k).take .trafficSummaryRequest)
    (others : ∀ k, ¬ f.TakesPart place k → g.prospect k = f.prospect k) (k : Nat) :
    (g.prospect k).pending.length ≤ 1 ∧ ∀ e ∈ (g.prospect k).pending,
      f.TakesPart place k ∧ ⟨e.1, place k⟩ ∈ f.registry.membership.members := by
  have hnone : (f.prospect k).pending = [] := h.settled (by rw [before]; decide) k
  by_cases hk : f.TakesPart place k
  · obtain ⟨hholds, id, hmem, hid⟩ := ha.accord.known k hk.2
    rw [told k hk, (Prospect.take_request hholds hid).2, hnone]
    refine ⟨Nat.le_refl 1, fun e he => ?_⟩
    obtain rfl := List.mem_singleton.mp he
    exact ⟨hk, hmem⟩
  · rw [others k hk, hnone]
    exact ⟨Nat.zero_le 1, fun e he => absurd he List.not_mem_nil⟩

theorem Clean.outstanding_asked (h : Clean place f) (ha : Agreed place size f)
    (before : f.registry.phase = .draining) (collector : g.registry.collector = .empty)
    (expected : g.registry.progress.expected = f.registry.askedNodes.length)
    (told : ∀ k, f.TakesPart place k → g.prospect k = (f.prospect k).take .trafficSummaryRequest)
    (others : ∀ k, ¬ f.TakesPart place k → g.prospect k = f.prospect k) :
    Outstanding (f.registry.askedNodes.map Entry.id) g := by
  have hpending := h.pending_of_asked ha before told others
  have hempty : ∀ s, s ∉ g.registry.collector.summaries := by
    rw [collector]
    exact fun s => List.not_mem_nil
  refine ⟨askedNodes_nodup ha.accord.sound, by rw [expected, List.length_map],
    fun s hs => absurd hs (hempty s), ?_, fun k => (hpending k).1, fun k e he => ?_,
    fun j k d hd e he hid => ?_⟩
  · rw [collector]
    exact .nil
  · obtain ⟨hpart, hmem⟩ := (hpending k).2 e he
    exact ⟨List.mem_map_of_mem (ha.mem_askedNodes hpart hmem), fun s hs => absurd hs (hempty s)⟩
  · obtain ⟨⟨-, hj⟩, hmemd⟩ := (hpending j).2 d hd
    obtain ⟨⟨-, hk⟩, hmeme⟩ := (hpending k).2 e he
    exact ha.eq_of_id hj hk hmemd (hid ▸ hmeme)

/-! ### Every action -/

theorem counts_of_passes (hphase : g.registry.phase = f.registry.phase ∨
      f.registry.phase = .awaitingSetup ∧ g.registry.phase = .ready ∨
      f.registry.phase = .running ∧ g.registry.phase = .draining)
    (hparticipants : g.registry.participants = f.registry.participants) (h : f.Counts place k) :
    g.Counts place k := by
  obtain ⟨hrunning, hpart⟩ := h
  refine ⟨?_, hparticipants ▸ hpart⟩
  rcases hphase with hsame | ⟨hbefore, -⟩ | ⟨-, hafter⟩
  · rw [hsame]
    exact hrunning
  · rw [hbefore] at hrunning
    rcases hrunning with h | h
    · cases h
    · cases h
  · exact .inr hafter

/-- Outside of runs, nothing is left over at all. -/
theorem Clean.calm (h : Clean place f) (hcalm : f.registry.phase.isRun = false) :
    (∀ k, (f.prospect k).pending = []) ∧
    ∀ k, f.registry.ledger.Reaches place k → f.residue k = 0 := by
  refine ⟨h.settled fun hphase => ?_, fun k hk => h.rested k hk fun ⟨hphase, _⟩ => ?_⟩
  · rw [hphase] at hcalm
    cases hcalm
  · rcases hphase with hphase | hphase
    · rw [hphase] at hcalm
      cases hcalm
    · rw [hphase] at hcalm
      cases hcalm

theorem Clean.passes (h : Clean place f) (same : Passes place f g)
    (phase : g.registry.phase = f.registry.phase ∨
      f.registry.phase = .awaitingSetup ∧ g.registry.phase = .ready ∨
      f.registry.phase = .running ∧ g.registry.phase = .draining)
    (overlay : g.registry.overlay = f.registry.overlay)
    (expected : g.registry.progress.expected = f.registry.progress.expected)
    (collector : g.registry.collector = f.registry.collector) : Clean place g := by
  have hcollecting : g.registry.phase = .collecting ↔ f.registry.phase = .collecting := by
    rcases phase with hsame | ⟨hbefore, hafter⟩ | ⟨hbefore, hafter⟩
    · rw [hsame]
    · rw [hbefore, hafter]
      decide
    · rw [hbefore, hafter]
      decide
  refine ⟨fun hphase k => ?_, fun k hk hcounts => ?_, fun hphase => ?_⟩
  · have hnil := h.settled (fun hbefore => hphase (hcollecting.mpr hbefore)) k
    exact List.sublist_nil.mp (hnil ▸ same.pending k)
  · rcases same.reached k hk with ⟨hreached, hsent⟩ | ⟨-, hsent⟩
    · refine hsent.trans (h.rested k hreached fun hbefore => hcounts ?_)
      exact counts_of_passes phase (Registry.participants_of_overlay overlay) hbefore
    · exact hsent
  · obtain ⟨asked, houtstanding⟩ := h.outstanding (hcollecting.mp hphase)
    exact ⟨asked, houtstanding.passes same expected collector⟩

/-- If no run was on, an overlay that is abandoned or set up anew leaves nothing behind. -/
theorem Clean.lapses (h : Clean place f) (hcalm : f.registry.phase.isRun = false)
    (same : Passes place f g) (hafter : g.registry.phase ≠ .collecting) : Clean place g := by
  obtain ⟨hnil, hzero⟩ := h.calm hcalm
  refine ⟨fun _ k => ?_, fun k hk _ => ?_, fun hphase => absurd hphase hafter⟩
  · exact List.sublist_nil.mp (hnil k ▸ same.pending k)
  · rcases same.reached k hk with ⟨hreached, hsent⟩ | ⟨-, hsent⟩
    · exact hsent.trans (hzero k hreached)
    · exact hsent

theorem Clean.starts {count : UInt32} (h : Clean place f) (before : f.registry.phase = .ready)
    (after : g.registry.phase = .running) (roll : g.registry.roll = f.registry.roll)
    (told : ∀ k, f.TakesPart place k → g.prospect k = (f.prospect k).take (.taskInitiate count))
    (others : ∀ k, ¬ f.TakesPart place k → g.prospect k = f.prospect k) : Clean place g := by
  obtain ⟨hnil, hzero⟩ := h.calm (by rw [before]; rfl)
  refine ⟨fun _ k => ?_, fun k hk hcounts => ?_, fun hphase => ?_⟩
  · by_cases hpart : f.TakesPart place k
    · rw [told k hpart, (Prospect.take_task _ _).2, hnil]
    · rw [others k hpart, hnil]
  · have hreached := (reaches_of_roll roll).mp hk
    have hnot : ¬ f.TakesPart place k := fun hpart =>
      hcounts ⟨.inl after, Registry.participants_of_roll roll ▸ hpart.1⟩
    rw [residue, others k hnot]
    exact hzero k hreached
  · rw [after] at hphase
    cases hphase

/-- A node that is asked reports all that it has counted. -/
theorem Clean.asks (h : Clean place f) (ha : Agreed place size f)
    (before : f.registry.phase = .draining) (after : g.registry.phase = .collecting)
    (roll : g.registry.roll = f.registry.roll)
    (collector : g.registry.collector = .empty)
    (expected : g.registry.progress.expected = f.registry.askedNodes.length)
    (told : ∀ k, f.TakesPart place k → g.prospect k = (f.prospect k).take .trafficSummaryRequest)
    (others : ∀ k, ¬ f.TakesPart place k → g.prospect k = f.prospect k) : Clean place g := by
  refine ⟨fun hphase => absurd after hphase, fun k hk _ => ?_,
    fun _ => ⟨_, h.outstanding_asked ha before collector expected told others⟩⟩
  have hreached := (reaches_of_roll roll).mp hk
  by_cases hpart : f.TakesPart place k
  · obtain ⟨hholds, id, -, hid⟩ := ha.accord.known k hreached
    rw [residue, told k hpart]
    exact (Prospect.take_request hholds hid).1
  · rw [residue, others k hpart]
    exact h.rested k hreached fun hcounts => hpart ⟨hcounts.2, hreached⟩

theorem Clean.asksNobody (h : Clean place f) (before : f.registry.phase = .draining)
    (after : g.registry.phase = .ready) (roll : g.registry.roll = f.registry.roll)
    (none : ∀ k, ¬ f.TakesPart place k) (same : ∀ k, g.prospect k = f.prospect k) :
    Clean place g := by
  refine ⟨fun _ k => ?_, fun k hk _ => ?_, fun hphase => ?_⟩
  · rw [same]
    exact h.settled (by rw [before]; decide) k
  · have hreached := (reaches_of_roll roll).mp hk
    rw [residue, same]
    exact h.rested k hreached fun hcounts => none k ⟨hcounts.2, hreached⟩
  · rw [after] at hphase
    cases hphase

theorem Clean.hears (h : Clean place f) (before : f.registry.phase = .collecting)
    (after : g.registry.phase = .collecting ∧
        g.registry.collector = f.registry.collector.add s ∧
        g.registry.progress.expected = f.registry.progress.expected ∨
      g.registry.phase = .ready ∧
        ¬ (f.registry.collector.add s).size < f.registry.progress.expected)
    (roll : g.registry.roll = f.registry.roll)
    (heard : (f.prospect k).pending = (s.id, s.sent.toNat) :: (g.prospect k).pending)
    (others : ∀ j, j ≠ k → (g.prospect j).pending = (f.prospect j).pending)
    (accounts : ∀ j, (g.prospect j).account = (f.prospect j).account) : Clean place g := by
  obtain ⟨asked, houtstanding⟩ := h.outstanding before
  refine ⟨fun hphase => ?_, fun j hj _ => ?_, fun hphase => ⟨asked, ?_⟩⟩
  · rcases after with ⟨hstill, -⟩ | ⟨-, hall⟩
    · exact absurd hstill hphase
    · exact houtstanding.nothing_left heard others hall
  · rw [residue, accounts]
    refine h.rested j ((reaches_of_roll roll).mp hj) fun ⟨hrunning, _⟩ => ?_
    rw [before] at hrunning
    rcases hrunning with h | h
    · cases h
    · cases h
  · rcases after with ⟨-, hcollector, hexpected⟩ | ⟨hready, -⟩
    · exact houtstanding.hears heard others hcollector hexpected
    · rw [hready] at hphase
      cases hphase

/-- **An action that abandons no run keeps a fleet clean.** -/
theorem Clean.act (h : Clean place f) (ha : Agreed place size f) (hkept : f.abandons x = false) :
    Clean place (f.act x) := by
  have hpassage := ha.passage x
  unfold abandons at hkept
  generalize f.act x = g at hpassage hkept ⊢
  cases hpassage with
  | passes same phase overlay expected collector =>
    exact h.passes same phase overlay expected collector
  | lapses same phase =>
    -- no run is abandoned, so none was on
    rcases phase with hidle | ⟨hcalm, hset⟩
    · rw [hidle] at hkept
      refine h.lapses (by simpa using hkept) same ?_
      rw [hidle]
      decide
    · refine h.lapses hcalm same ?_
      rw [hset]
      decide
  | starts action counted before after roll told others =>
    exact h.starts before after roll told others
  | asks before after roll collector expected told others =>
    exact h.asks ha before after roll collector expected told others
  | asksNobody before after roll none same => exact h.asksNobody before after roll none same
  | hears k s before after roll heard others accounts =>
    exact h.hears before after roll heard others accounts

end RingOverlay.Fleet
