import RingOverlay.Proofs.Fleet.Leftovers

/-!
# Fleet — what a report says was sent

A run has every participant originate as many packets as the operator asked for, and nobody starts
its count over for that.  So what a summary of the run reports is what its node had left over when
the run began, and the task; and a summary that was under way already when the run began may come in
in its place.  `Foresees f count e` says of a row that it is one of these two.

`Underway place f₀ count f` is the invariant of a run that began in `f₀`: nodes that take part have
counted what they had left over and the task, and whatever is collected or will be is foreseen.

* `Underway.act`: every action but a new start keeps a run under way.
* `report_sent`: **every row of a report was to be foreseen when the run began, and if no run was
  abandoned before, it is the task and nothing else.**
-/

namespace RingOverlay.Fleet

open Registry (Sound)

/-- Whether an action is a start that succeeds. -/
def starts (f : Fleet) : Action → Bool
  | .start count => (f.command (·.start count)).2.isOk
  | _ => false

/-- Whether every action of a run is such, in the state in which it happens. -/
def along (such : Fleet → Action → Bool) : Fleet → List Action → Bool
  | _, [] => true
  | f, x :: xs => such f x && along such (f.act x) xs

/-- What a report of a run that begins in `f` may say: a summary that is pending already, or what a
participant has left over and its task.  Node `k` is a participant that the registry reaches where
it listens. -/
def Foresees (f : Fleet) (count : Nat) (e : NodeId × Nat) : Prop :=
  (∃ k, e ∈ (f.prospect k).pending) ∨
  ∃ k a, f.homes[k]? = some a ∧ ⟨e.1, a⟩ ∈ f.registry.roster ∧
    f.registry.reachedOver k a = true ∧ e.2 = min (f.residue k + count) maxCount.toNat

/-- A run of `count` packets per node that began in `f₀` is as far as `f`. -/
structure Underway (place : Nat → PeerAddress) (f₀ : Fleet) (count : Nat) (f : Fleet) :
    Prop where
  overlay : f.registry.phase.isRun = true → f.registry.overlay = f₀.registry.overlay
  counted : f.registry.phase = .running ∨ f.registry.phase = .draining → ∀ k, f.TakesPart place k →
    f₀.TakesPart place k ∧ f.residue k = min (f₀.residue k + count) maxCount.toNat
  pending : f.registry.phase.isRun = true → ∀ k, ∀ e ∈ (f.prospect k).pending, f₀.Foresees count e
  collected : f.registry.phase = .collecting → ∀ s ∈ f.registry.collector.summaries,
    f₀.Foresees count (s.id, s.sent.toNat)

variable {place : Nat → PeerAddress} {size : Nat} {f₀ f g : Fleet} {x : Action} {count : UInt32}

/-- What every such action keeps of a fleet that agrees with itself, a run of such actions keeps. -/
theorem Agreed.along_run {such : Fleet → Action → Bool} {P : Fleet → Prop}
    (hstep : ∀ f x, Agreed place size f → P f → such f x = true → P (f.act x)) {xs : List Action}
    (ha : Agreed place size f) (h : P f) (hlisted : Listed place (f.run xs))
    (hxs : along such f xs = true) : P (f.run xs) := by
  induction xs generalizing f with
  | nil => exact h
  | cons x xs ih =>
    obtain ⟨hx, hrest⟩ := Bool.and_eq_true_iff.mp hxs
    have hnext : Listed place (f.act x) := hlisted.of_prefix ((ha.proper.act x).1.run xs).2
    exact ih (ha.act hnext) (hstep f x ha h hx) hlisted hrest

/-! ### Starting -/

/-- A start succeeds if it begins a run. -/
theorem starts_iff (f : Fleet) (count : UInt32) : f.starts (.start count) = true ↔
    f.registry.phase = .ready ∧ (f.act (.start count)).registry.phase = .running := by
  have hphase : (f.act (.start count)).registry.phase = (f.registry.start count).1.phase := rfl
  have hstart : f.starts (.start count) = (f.registry.start count).2.isOk := rfl
  rw [hphase, hstart]
  by_cases h : maxCount < count ∨ f.registry.phase ≠ .ready ∨
      (f.registry.told (.taskInitiate count)).length = 0
  · obtain ⟨hfail, hsame⟩ := Registry.start_refused count h
    have hsame' : (f.registry.start count).1.phase = f.registry.phase := congrArg Stage.phase hsame
    rw [hfail, hsame']
    refine ⟨nofun, fun ⟨hready, hrunning⟩ => ?_⟩
    rw [hready] at hrunning
    cases hrunning
  · obtain ⟨hcount, h⟩ := not_or.mp h
    obtain ⟨hready, htold⟩ := not_or.mp h
    replace hready := Decidable.not_not.mp hready
    obtain ⟨hok, hstage⟩ := Registry.start_eq_ok hcount hready htold
    have hrunning : (f.registry.start count).1.phase = .running := congrArg Stage.phase hstage
    rw [hok, hrunning]
    exact ⟨fun _ => ⟨hready, rfl⟩, fun _ => rfl⟩

/-- No more is ever asked for than can be counted. -/
theorem count_le_of_starts (h : f.starts (.start count) = true) :
    count.toNat ≤ maxCount.toNat := by
  by_contra hgt
  have hrefused := (Registry.start_refused (r := f.registry) count
    (.inl (UInt32.lt_iff_toNat_lt.mpr (Nat.lt_of_not_le hgt)))).1
  exact Bool.false_ne_true (hrefused.symm.trans h)

/-- With two or more in an overlay, each has somebody to send to. -/
theorem others_ne_nil {ids : List NodeId} (hnodup : ids.Nodup) (hsize : 2 ≤ ids.length)
    (id : NodeId) : ids.filter (· != id) ≠ [] := by
  intro hnil
  have hall : ∀ i ∈ ids, i = id := by
    intro i hi
    have hnot := List.filter_eq_nil_iff.mp hnil i hi
    simpa using hnot
  have hsub : ids ⊆ [id] := fun i hi => List.mem_singleton.mpr (hall i hi)
  have hlength := (List.subperm_of_subset hnodup hsub).length_le
  rw [List.length_singleton] at hlength
  omega

theorem originate_sent {acc : Account} {id : NodeId} (hid : acc.id = some id)
    (hothers : acc.nodeIds.filter (· != id) ≠ []) (count : Nat) :
    (acc.originate count).sent = min (acc.sent + count) maxCount.toNat := by
  rw [Account.originate, hid]
  dsimp only
  rw [if_neg hothers]

/-- **A participant counts the task on top of what it has left over.** -/
theorem Agreed.residue_of_task (h : Agreed place size f)
    (hsize : 2 ≤ f.registry.participants.length) {k : Nat} (hk : f.TakesPart place k) :
    ((f.prospect k).take (.taskInitiate count)).account.sent =
      min (f.residue k + count.toNat) maxCount.toNat := by
  have hsound : Sound size [] f.registry.roll := h.accord.sound
  obtain ⟨hholds, id, -, hid⟩ := h.accord.known k hk.2
  obtain ⟨o, nodes, ho, hover, -, hascend, -⟩ := Registry.over_of_participant hsound hk.1
  have hparticipants : f.registry.participants = o.participants := by
    rw [Registry.participants, ho]
  have hknows := h.accord.laidOut o k ho (hparticipants ▸ hk.1) hk.2
  have hnodup : (nodes.map Entry.id).Nodup :=
    List.pairwise_map.mpr (hascend.imp fun hlt => Fin.ne_of_lt hlt)
  have hlength : 2 ≤ (nodes.map Entry.id).length := by
    rwa [List.length_map, ← List.length_map Entry.address, ← hover.addresses, ← hparticipants]
  rw [(Prospect.take_task _ count).1 hholds]
  refine originate_sent hid ?_ count.toNat
  rw [hknows, hover.ids]
  exact others_ne_nil hnodup hlength id

theorem Underway.begin (h : Agreed place size f) (hstart : f.starts (.start count) = true)
    (hsize : 2 ≤ f.registry.participants.length) :
    Underway place f count.toNat (f.act (.start count)) := by
  obtain ⟨hready, hrunning⟩ := (starts_iff f count).mp hstart
  have hpassage := h.passage (.start count)
  generalize f.act (.start count) = g at hpassage hrunning
  have hcollecting : g.registry.phase ≠ .collecting := by rw [hrunning]; decide
  cases hpassage with
  | starts action counted before after roll told others =>
    cases action
    refine ⟨fun _ => congrArg Roll.overlay roll, fun _ k hk => ?_, fun _ k e he => .inl ⟨k, ?_⟩,
      fun hphase => absurd hphase hcollecting⟩
    · have hpart := (takesPart_of_roll roll).mp hk
      refine ⟨hpart, ?_⟩
      rw [residue, told k hpart]
      exact h.residue_of_task hsize hpart
    · by_cases hpart : f.TakesPart place k
      · rwa [told k hpart, (Prospect.take_task _ _).2] at he
      · rwa [others k hpart] at he
  | passes same phase overlay expected collector =>
    rw [hready, hrunning] at phase
    simp at phase
  | lapses same phase =>
    rw [hready, hrunning] at phase
    simp at phase
  | asks before | asksNobody before | hears k s before =>
    rw [hready] at before
    cases before

/-! ### Going on -/

/-- Once a run is over, nothing more is said of it. -/
theorem Underway.of_calm (hcalm : f.registry.phase.isRun = false) (place : Nat → PeerAddress)
    (f₀ : Fleet) (count : Nat) : Underway place f₀ count f := by
  have hover : f.registry.phase.isRun ≠ true := Bool.eq_false_iff.mp hcalm
  refine ⟨fun hrun => absurd hrun hover, fun hphase => absurd ?_ hover,
    fun hrun => absurd hrun hover, fun hphase => absurd ?_ hover⟩
  · rcases hphase with hphase | hphase
    · rw [hphase]
      rfl
    · rw [hphase]
      rfl
  · rw [hphase]
    rfl

theorem Underway.passes {count : Nat} (h : Underway place f₀ count f) (same : Passes place f g)
    (phase : g.registry.phase = f.registry.phase ∨
      f.registry.phase = .awaitingSetup ∧ g.registry.phase = .ready ∨
      f.registry.phase = .running ∧ g.registry.phase = .draining)
    (overlay : g.registry.overlay = f.registry.overlay)
    (collector : g.registry.collector = f.registry.collector) : Underway place f₀ count g := by
  have hpart : ∀ k, g.TakesPart place k →
      f.TakesPart place k ∧ (g.prospect k).account.sent = (f.prospect k).account.sent := by
    rintro k ⟨hmem, hreaches⟩
    rcases same.reached k hreaches with ⟨hreached, hsent⟩ | ⟨hnot, -⟩
    · exact ⟨⟨Registry.participants_of_overlay overlay ▸ hmem, hreached⟩, hsent⟩
    · exact absurd hmem hnot
  have hcounted : f.registry.phase = .running ∨ f.registry.phase = .draining → ∀ k,
      g.TakesPart place k → f₀.TakesPart place k ∧
        g.residue k = min (f₀.residue k + count) maxCount.toNat := by
    intro hphase k hk
    obtain ⟨hbefore, hsent⟩ := hpart k hk
    obtain ⟨hbegan, hresidue⟩ := h.counted hphase k hbefore
    exact ⟨hbegan, hsent.trans hresidue⟩
  rcases phase with hsame | ⟨-, hready⟩ | ⟨hrunning, hdraining⟩
  · refine ⟨fun hrun => overlay.trans (h.overlay (hsame ▸ hrun)),
      fun hphase => hcounted (hsame ▸ hphase),
      fun hrun k e he => h.pending (hsame ▸ hrun) k e ((same.pending k).subset he),
      fun hphase => collector ▸ h.collected (hsame ▸ hphase)⟩
  · exact .of_calm (by rw [hready]; rfl) place f₀ count
  · have hrun : f.registry.phase.isRun = true := by rw [hrunning]; rfl
    refine ⟨fun _ => overlay.trans (h.overlay hrun), fun _ => hcounted (.inl hrunning),
      fun _ k e he => h.pending hrun k e ((same.pending k).subset he), fun hphase => ?_⟩
    rw [hdraining] at hphase
    cases hphase

/-- What is asked for is what was left over, and the task. -/
theorem Underway.asks {count : Nat} (h : Underway place f₀ count f)
    (h₀ : Agreed place size f₀) (ha : Agreed place size f)
    (before : f.registry.phase = .draining) (after : g.registry.phase = .collecting)
    (roll : g.registry.roll = f.registry.roll) (collector : g.registry.collector = .empty)
    (told : ∀ k, f.TakesPart place k → g.prospect k = (f.prospect k).take .trafficSummaryRequest)
    (others : ∀ k, ¬ f.TakesPart place k → g.prospect k = f.prospect k) :
    Underway place f₀ count g := by
  have hrun : f.registry.phase.isRun = true := by rw [before]; rfl
  refine ⟨fun _ => (congrArg Roll.overlay roll).trans (h.overlay hrun), fun hphase => ?_,
    fun _ k e he => ?_, fun _ s hs => ?_⟩
  · rw [after] at hphase
    rcases hphase with h | h
    · cases h
    · cases h
  · by_cases hpart : f.TakesPart place k
    · obtain ⟨hholds, id, hmem, hid⟩ := ha.accord.known k hpart.2
      rw [told k hpart, (Prospect.take_request hholds hid).2] at he
      rcases List.mem_append.mp he with he | he
      · exact h.pending hrun k e he
      · obtain rfl := List.mem_singleton.mp he
        obtain ⟨hbegan, hresidue⟩ := h.counted (.inr before) k hpart
        have hroster := ha.mem_roster hpart hmem
        rw [Registry.roster, h.overlay hrun] at hroster
        exact .inr ⟨k, place k, h₀.home_of_reaches hbegan.2, hroster,
          reachedOver_of_reaches hbegan.2, hresidue⟩
    · rw [others k hpart] at he
      exact h.pending hrun k e he
  · rw [collector] at hs
    exact absurd hs List.not_mem_nil

/-- What is heard was to be foreseen. -/
theorem Underway.collected_add {count k : Nat} {s : Summary} (h : Underway place f₀ count f)
    (before : f.registry.phase = .collecting)
    (heard : (s.id, s.sent.toNat) ∈ (f.prospect k).pending) :
    ∀ t ∈ (f.registry.collector.add s).summaries, f₀.Foresees count (t.id, t.sent.toNat) := by
  intro t ht
  rcases Collector.mem_of_mem_insert ht with rfl | ht
  · exact h.pending (by rw [before]; rfl) k _ heard
  · exact h.collected before t ht

theorem Underway.hears {count k : Nat} {s : Summary} (h : Underway place f₀ count f)
    (before : f.registry.phase = .collecting) (after : g.registry.phase = .collecting)
    (collector : g.registry.collector = f.registry.collector.add s)
    (roll : g.registry.roll = f.registry.roll)
    (heard : (f.prospect k).pending = (s.id, s.sent.toNat) :: (g.prospect k).pending)
    (others : ∀ j, j ≠ k → (g.prospect j).pending = (f.prospect j).pending) :
    Underway place f₀ count g := by
  have hrun : f.registry.phase.isRun = true := by rw [before]; rfl
  refine ⟨fun _ => (congrArg Roll.overlay roll).trans (h.overlay hrun), fun hphase => ?_,
    fun _ j e he => h.pending hrun j e ?_, fun _ => ?_⟩
  · rw [after] at hphase
    rcases hphase with h | h
    · cases h
    · cases h
  · by_cases hj : j = k
    · obtain rfl := hj
      exact heard ▸ .tail _ he
    · exact others j hj ▸ he
  · rw [collector]
    exact h.collected_add before (heard ▸ List.mem_cons_self)

/-- **Every action but a new start keeps a run under way.** -/
theorem Underway.act {count : Nat} (h : Underway place f₀ count f)
    (h₀ : Agreed place size f₀) (ha : Agreed place size f) (hstart : f.starts x = false) :
    Underway place f₀ count (f.act x) := by
  cases ha.passage x with
  | passes same phase overlay expected collector => exact h.passes same phase overlay collector
  | lapses same phase =>
    refine .of_calm ?_ place f₀ count
    rcases phase with hidle | ⟨-, hset⟩
    · rw [hidle]
      rfl
    · rw [hset]
      rfl
  | starts action counted before after roll told others =>
    rw [action, (starts_iff f _).mpr ⟨before, action ▸ after⟩] at hstart
    cases hstart
  | asks before after roll collector expected told others =>
    exact h.asks h₀ ha before after roll collector told others
  | asksNobody before after roll none same => exact .of_calm (by rw [after]; rfl) place f₀ count
  | hears k s before after roll heard others accounts =>
    rcases after with ⟨hstill, hcollector, -⟩ | ⟨hready, -⟩
    · exact h.hears before hstill hcollector roll heard others
    · exact .of_calm (by rw [hready]; rfl) place f₀ count

/-! ### Reporting -/

/-- A report is made of what has been collected and the summary that comes in last. -/
theorem Agreed.report_eq (h : Agreed place size f) {report : Report}
    (hreport : (f.act x).reports = report :: f.reports) :
    ∃ k s, f.registry.phase = .collecting ∧ (s.id, s.sent.toNat) ∈ (f.prospect k).pending ∧
      report.rows = (f.registry.collector.add s).summaries := by
  have hturn := (h.proper.act x).2
  generalize f.act x = g at hturn hreport
  have hsame : g.reports ≠ f.reports := by
    rw [hreport]
    exact List.cons_ne_self _ _
  cases hturn with
  | joins _ _ _ _ _ _ published | stirs _ _ _ _ published | parts _ _ _ _ _ published
  | notices _ _ _ _ _ _ published => exact absurd published hsame
  | acts a of ledger deed homes up prospect published =>
    have hnone : f.registry.reports = [] := by rw [reports_eq, h.proper.silent]; rfl
    rcases Registry.reports_act f.registry a with hsilent | ⟨k, s, rfl, -, hphase, -, hone⟩
    · rw [hsilent, hnone] at published
      exact absurd published hsame
    · rw [hone, hnone, hreport] at published
      obtain ⟨hrows, -⟩ := List.cons_eq_cons.mp published
      obtain ⟨q, hq, -⟩ := prospect k
      refine ⟨k, s, hphase, ?_, by rw [hrows]; rfl⟩
      rw [hq, heard, if_pos rfl]
      exact List.mem_cons_self

/-- **What a report says was sent.**  Every row is of a summary that was pending already when the
run began, or of a participant, and then it is what that had left over and the task.  If no run was
abandoned before, it is the task. -/
theorem report_sent (config : RegistryConfig) (draws : Draws) (before during : List Action)
    (count : UInt32) (x : Action) {report : Report} (hf₀ : f₀ = (opened config draws).run before)
    (hf : f = (f₀.act (.start count)).run during) (hstart : f₀.starts (.start count) = true)
    (hsize : 2 ≤ f₀.registry.participants.length)
    (hduring : along (fun f x => !f.starts x) (f₀.act (.start count)) during = true)
    (hreport : (f.act x).reports = report :: f.reports) :
    (∀ s ∈ report.rows, f₀.Foresees count.toNat (s.id, s.sent.toNat)) ∧
    (along (fun f x => !f.abandons x) (opened config draws) before = true →
      ∀ s ∈ report.rows, s.sent = count) := by
  obtain ⟨place, hlisted⟩ := exists_listed f
  have hproper : Proper f₀ := hf₀ ▸ ((proper_opened config draws).run before).1
  obtain ⟨hstarted, hturn⟩ := hproper.act (.start count)
  have hnext : Listed place (f₀.act (.start count)) :=
    hlisted.of_prefix (hf ▸ (hstarted.run during).2)
  have hbegun : Listed place f₀ := hnext.of_prefix hturn.homes_grow
  have hopened := agreed_opened place config draws
  have hagreed : Agreed place config.ringSize f₀ := by
    subst hf₀
    exact hopened.run before hbegun
  have hactive := hagreed.act hnext
  have hunderway : Agreed place config.ringSize f ∧ Underway place f₀ count.toNat f := by
    subst hf
    exact ⟨hactive.run during hlisted, hactive.along_run
      (fun f x ha hf hx => hf.act hagreed ha (by simpa using hx))
      (.begin hagreed hstart hsize) hlisted hduring⟩
  obtain ⟨k, s, hphase, hheard, hrows⟩ := hunderway.1.report_eq hreport
  have hforeseen := hunderway.2.collected_add hphase hheard
  rw [← hrows] at hforeseen
  refine ⟨hforeseen, fun hkept t ht => ?_⟩
  have hclean : Clean place f₀ := by
    subst hf₀
    exact hopened.along_run (fun f x ha hf hx => hf.act ha (by simpa using hx))
      (clean_opened place config draws) hbegun hkept
  obtain ⟨hready, -⟩ := (starts_iff _ count).mp hstart
  obtain ⟨hnil, hzero⟩ := hclean.calm (by rw [hready]; rfl)
  rcases hforeseen t ht with ⟨j, hj⟩ | ⟨j, a, -, -, hover, hsent⟩
  · rw [hnil] at hj
    cases hj
  · have hreached := (hagreed.accord.reaches_of_reachedOver hover).2
    rw [hzero j hreached, Nat.zero_add, Nat.min_eq_left (count_le_of_starts hstart)] at hsent
    exact UInt32.toNat_inj.mp hsent

/-- The oldest parcel of a lane is delivered, to a node that draws nothing but zeros. -/
def delivery (lane : Lane) : Action := .delivered lane (.ofList [])

/-- The registry hears the oldest message of each node, in order. -/
def heardFrom (nodes : List Nat) : List Action := nodes.map fun k => delivery (.up k)

/-- Each node takes the oldest message that the registry has sent it, in order. -/
def takenBy (nodes : List Nat) : List Action := nodes.map fun k => delivery (.down k)

/-- Node `k` joins.  It listens on a port of its own, and connects from another. -/
def arrival (k : Nat) : Action :=
  .joined false ⟨"127.0.0.1", UInt16.ofNat (7001 + k)⟩ ⟨.loopback, s!"127.0.0.1:{40001 + k}"⟩

/-- So many nodes join one after another, and each is registered. -/
def joining (nodes : List Nat) : List Action :=
  nodes.flatMap fun k => [arrival k, delivery (.up k), delivery (.down k)]

/-- Nodes carry out their task and are asked for their summaries, of which the last is under way. -/
def running (nodes : List Nat) : List Action :=
  takenBy nodes ++ heardFrom nodes ++ [.elapsed 5000] ++ takenBy nodes ++ heardFrom nodes.dropLast

/-- Two nodes join and are set up. -/
def pairReady : List Action :=
  joining [0, 1] ++ [.setup (some 1)] ++ takenBy [0, 1] ++ heardFrom [0, 1]

/-- Two nodes that are set up. -/
def pairFleet : Fleet := (opened {} (.ofList [21, 34])).run pairReady

/-- Two nodes have been set up and have sent one packet each, and no run was abandoned. -/
theorem report_sent_pair :
    pairFleet.starts (.start 1) = true ∧ pairFleet.registry.participants.length = 2 ∧
    ∃ report, (((pairFleet.act (.start 1)).run (running [0, 1])).act (delivery (.up 1))).reports =
      [report] ∧ report.rows.map (fun s => s.id.val) = [21, 34] ∧
      ∀ s ∈ report.rows, s.sent = 1 := by
  have hstart : pairFleet.starts (.start 1) = true := by decide +kernel
  have hsize : pairFleet.registry.participants.length = 2 := by decide +kernel
  have hduring : along (fun f x => !f.starts x) (pairFleet.act (.start 1)) (running [0, 1]) =
      true := by
    decide +kernel
  have hkept : along (fun f x => !f.abandons x) (opened {} (.ofList [21, 34])) pairReady =
      true := by
    decide +kernel
  have hbefore : ((pairFleet.act (.start 1)).run (running [0, 1])).reports = [] := by
    decide +kernel
  have hafter : (((pairFleet.act (.start 1)).run (running [0, 1])).act
      (delivery (.up 1))).reports.map (fun report => report.rows.map fun s => s.id.val) =
        [[21, 34]] := by
    decide +kernel
  obtain ⟨report, hreport, hrows⟩ := List.map_eq_singleton_iff.mp hafter
  refine ⟨hstart, hsize, report, hreport, hrows, ?_⟩
  refine (report_sent {} (.ofList [21, 34]) pairReady (running [0, 1]) 1 (delivery (.up 1)) rfl rfl
    hstart (Nat.le_of_eq hsize.symm) hduring ?_).2 hkept
  exact hreport.trans (congrArg (report :: ·) hbefore.symm)

/-- Three nodes are set up and told to send three packets each.  Two of them do, and the third
leaves, so that the run is abandoned; the others are set up anew. -/
def leftFleet : Fleet :=
  (opened {} (.ofList [21, 34, 55])).run
    (joining [0, 1, 2] ++ [.setup (some 1)] ++ takenBy [0, 1, 2] ++ heardFrom [0, 1, 2] ++
      [.start 3] ++ takenBy [0, 1] ++ [.exited 2] ++ heardFrom [2] ++
      [.setup (some 1)] ++ takenBy [0, 1] ++ heardFrom [0, 1, 0, 1])

/-- **The packets of an abandoned run show up in the next report.**  A run of two packets per node
is begun over two participants, and its report says that each has sent five. -/
theorem report_sent_leftover :
    leftFleet.starts (.start 2) = true ∧ leftFleet.registry.participants.length = 2 ∧
    along (fun f x => !f.starts x) (leftFleet.act (.start 2)) (running [0, 1]) = true ∧
    ((leftFleet.act (.start 2)).run (running [0, 1])).reports = [] ∧
    (((leftFleet.act (.start 2)).run (running [0, 1])).act (delivery (.up 1))).reports.map
      (fun report => report.rows.map fun s => (s.id.val, s.sent.toNat)) = [[(21, 5), (34, 5)]] := by
  decide +kernel

end RingOverlay.Fleet
