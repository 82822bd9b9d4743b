import RingOverlay.Proofs.Fleet.Accord
import RingOverlay.Proofs.Registry.Collection

/-!
# Fleet — what bears on a report

Of all that happens in a fleet, little bears on what nodes will report as sent: that a run starts,
that summaries are asked for, and that one comes in.  `Passage place f x g` sorts the actions by
that.  For the others, `Passes place f g` says that nobody whom the registry reaches has sent more
than before, and that nothing more will be reported.

* `Agreed.act`: whatever a fleet does, it stays proper and agrees with itself.
* `Agreed.passage`: **every action is one of those listed.**
-/

namespace RingOverlay

/-- Whether a message bears on what a node reports as sent. -/
def Message.bearsOnSent : Message → Bool
  | taskInitiate _ | trafficSummaryRequest => true
  | _ => false

theorem Account.handle_of_not_bears {m : Message} (h : m.bearsOnSent = false) (acc : Account) :
    (acc.handle m).sent = acc.sent ∧ acc.reports? m = none := by
  cases m with
  | registrationStatus status info =>
    refine ⟨?_, rfl⟩
    by_cases hneg : status < 0
    · rw [handle_refused _ hneg]
    · rw [handle_accepted _ hneg]
      cases NodeId.ofInt status.toInt with
      | error e => rfl
      | ok id => rfl
  | deregistrationStatus status info =>
    refine ⟨?_, rfl⟩
    by_cases hneg : status < 0
    · rw [handle_retained _ hneg]
    · rw [handle_dismissed _ hneg]
  | taskInitiate | trafficSummaryRequest => cases h
  | _ => exact ⟨rfl, rfl⟩

/-- What does not bear on it leaves what a node has sent, and what it will report. -/
theorem Prospect.takes_of_not_bears (p : Prospect) {ms : List Message}
    (h : ∀ m ∈ ms, m.bearsOnSent = false) :
    (p.takes ms).account.sent = p.account.sent ∧ (p.takes ms).pending = p.pending := by
  induction ms generalizing p with
  | nil => exact ⟨rfl, rfl⟩
  | cons m ms ih =>
    obtain ⟨hsent, hpending⟩ := ih (p.take m) fun m' hm' => h m' (.tail _ hm')
    rw [takes_cons, hsent, hpending]
    cases hnow : p.holds with
    | false => exact ⟨by rw [take_of_not_holds hnow], by rw [take_of_not_holds hnow]⟩
    | true =>
      obtain ⟨hsame, hnone⟩ := Account.handle_of_not_bears (h m (.head _)) p.account
      rw [take_of_holds hnow, hnone]
      exact ⟨hsame, List.append_nil _⟩

/-- A task is taken up, and reports nothing. -/
theorem Prospect.take_task (p : Prospect) (count : UInt32) :
    (p.holds = true → (p.take (.taskInitiate count)).account = p.account.originate count.toNat) ∧
    (p.take (.taskInitiate count)).pending = p.pending := by
  cases hnow : p.holds with
  | false =>
    rw [take_of_not_holds hnow]
    exact ⟨nofun, rfl⟩
  | true =>
    rw [take_of_holds hnow]
    exact ⟨fun _ => rfl, List.append_nil _⟩

/-- A node that is asked for its summary reports what it has counted, and has nothing left. -/
theorem Prospect.take_request {p : Prospect} (hholds : p.holds = true) {id : NodeId}
    (hid : p.account.id = some id) :
    (p.take .trafficSummaryRequest).account.sent = 0 ∧
    (p.take .trafficSummaryRequest).pending = p.pending ++ [(id, p.account.sent)] := by
  obtain ⟨hreset, hreport⟩ := Account.handle_request_of_some hid
  rw [take_of_holds hholds, hreset, hreport]
  exact ⟨rfl, rfl⟩

namespace Fleet

open Registry (Sound Deed)

/-- Node `k` is reached, and takes part in the overlay. -/
def TakesPart (f : Fleet) (place : Nat → PeerAddress) (k : Nat) : Prop :=
  place k ∈ f.registry.participants ∧ f.registry.ledger.Reaches place k

/-- From `f` to `g`, nobody who is reached has sent more, and nothing more will be reported. -/
structure Passes (place : Nat → PeerAddress) (f g : Fleet) : Prop where
  /-- Who was not reached before has only just been registered. -/
  reached : ∀ k, g.registry.ledger.Reaches place k →
    f.registry.ledger.Reaches place k ∧ (g.prospect k).account.sent = (f.prospect k).account.sent ∨
    place k ∉ g.registry.participants ∧ (g.prospect k).account.sent = 0
  pending : ∀ k, (g.prospect k).pending.Sublist (f.prospect k).pending

/-- What an action does that bears on what is reported as sent. -/
inductive Passage (place : Nat → PeerAddress) (f : Fleet) (x : Action) (g : Fleet) : Prop where
  | passes (same : Passes place f g)
      (phase : g.registry.phase = f.registry.phase ∨
        f.registry.phase = .awaitingSetup ∧ g.registry.phase = .ready ∨
        f.registry.phase = .running ∧ g.registry.phase = .draining)
      (overlay : g.registry.overlay = f.registry.overlay)
      (expected : g.registry.progress.expected = f.registry.progress.expected)
      (collector : g.registry.collector = f.registry.collector)
  /-- An overlay is abandoned, or a new one set up. -/
  | lapses (same : Passes place f g)
      (phase : g.registry.phase = .idle ∨
        f.registry.phase.isRun = false ∧ g.registry.phase = .awaitingSetup)
  | starts {count : UInt32} (action : x = .start count) (counted : ¬ maxCount < count)
      (before : f.registry.phase = .ready) (after : g.registry.phase = .running)
      (roll : g.registry.roll = f.registry.roll)
      (told : ∀ k, f.TakesPart place k → g.prospect k = (f.prospect k).take (.taskInitiate count))
      (others : ∀ k, ¬ f.TakesPart place k → g.prospect k = f.prospect k)
  | asks (before : f.registry.phase = .draining) (after : g.registry.phase = .collecting)
      (roll : g.registry.roll = f.registry.roll) (collector : g.registry.collector = .empty)
      (expected : g.registry.progress.expected = f.registry.askedNodes.length)
      (told : ∀ k, f.TakesPart place k → g.prospect k = (f.prospect k).take .trafficSummaryRequest)
      (others : ∀ k, ¬ f.TakesPart place k → g.prospect k = f.prospect k)
  | asksNobody (before : f.registry.phase = .draining) (after : g.registry.phase = .ready)
      (roll : g.registry.roll = f.registry.roll) (none : ∀ k, ¬ f.TakesPart place k)
      (same : ∀ k, g.prospect k = f.prospect k)
  /-- A summary comes in, and it may be the last. -/
  | hears (k : Nat) (s : Summary) (before : f.registry.phase = .collecting)
      (after : g.registry.phase = .collecting ∧
          g.registry.collector = f.registry.collector.add s ∧
          g.registry.progress.expected = f.registry.progress.expected ∨
        g.registry.phase = .ready ∧
          ¬ (f.registry.collector.add s).size < f.registry.progress.expected)
      (roll : g.registry.roll = f.registry.roll)
      (heard : (f.prospect k).pending = (s.id, s.sent.toNat) :: (g.prospect k).pending)
      (others : ∀ j, j ≠ k → (g.prospect j).pending = (f.prospect j).pending)
      (accounts : ∀ j, (g.prospect j).account = (f.prospect j).account)

/-! ### Agreeing -/

/-- A fleet that is put together as it should be, whose nodes listen where `place` says, and that
agrees with itself. -/
structure Agreed (place : Nat → PeerAddress) (size : Nat) (f : Fleet) : Prop where
  proper : Proper f
  listed : Listed place f
  accord : Accord place size f.registry.ledger f.up f.prospect

variable {place : Nat → PeerAddress} {size : Nat} {f g : Fleet} {x : Action} {k : Nat}

theorem agreed_opened (place : Nat → PeerAddress) (config : RegistryConfig) (draws : Draws) :
    Agreed place config.ringSize (opened config draws) :=
  ⟨proper_opened config draws, (fun _ _ h => nomatch h), .opened place config draws⟩

theorem Agreed.act (h : Agreed place size f) (hx : Listed place (f.act x)) :
    Agreed place size (f.act x) :=
  ⟨(h.proper.act x).1, hx, h.accord.turn h.proper hx (h.proper.act x).2⟩

theorem Agreed.run (h : Agreed place size f) (xs : List Action) (hxs : Listed place (f.run xs)) :
    Agreed place size (f.run xs) := by
  induction xs generalizing f with
  | nil => exact h
  | cons x xs ih =>
    have hx : Listed place (f.act x) := hxs.of_prefix ((h.proper.act x).1.run xs).2
    exact ih (h.act hx) hxs

/-! ### Who takes part -/

/-- Whom the registry reaches has joined, and listens where it was to. -/
theorem Agreed.home_of_reaches (h : Agreed place size f)
    (hk : f.registry.ledger.Reaches place k) : f.homes[k]? = some (place k) := by
  obtain ⟨far, hfar, -⟩ := h.accord.sound.observed (place k) k hk.1
  have hmade : k < f.registry.links.ends.length :=
    Links.end?_isSome_iff.mp (Option.isSome_of_eq_some hfar)
  rw [h.proper.connected, ← f.length_homes] at hmade
  have hhome := List.getElem?_eq_getElem hmade
  rw [hhome, h.listed k _ hhome]

theorem participants_nodup {r : Registry} (h : Sound size [] r.roll) :
    r.participants.Nodup := by
  unfold Registry.participants
  cases ho : r.overlay with
  | none => exact .nil
  | some o =>
    obtain ⟨nodes, hover, hsub, hascend⟩ := h.laidOut o ho
    have hnodes : nodes.Nodup := hascend.imp fun hlt heq => absurd (heq ▸ hlt) (Nat.lt_irrefl _)
    change o.participants.Nodup
    rw [hover.addresses]
    exact hnodes.map_on fun e he e' he' => h.members.eq_of_address (hsub he) (hsub he')

/-- As many are asked as take part and can be. -/
theorem length_told {r : Registry} (h : Sound size [] r.roll) :
    (r.told .trafficSummaryRequest).length = r.askedNodes.length := by
  cases ho : r.overlay with
  | none => rw [Registry.told, Registry.askedNodes, Registry.roster, ho]; rfl
  | some o =>
    obtain ⟨nodes, hover, -, -⟩ := h.laidOut o ho
    rw [Registry.told_of_over ho hover, List.length_map]

/-- A broadcast reaches whoever takes part once. -/
theorem Agreed.filter_reachedOver (h : Agreed place size f) (k : Nat) :
    (f.TakesPart place k → f.registry.participants.filter (f.registry.reachedOver k) = [place k]) ∧
    (¬ f.TakesPart place k → f.registry.participants.filter (f.registry.reachedOver k) = []) := by
  constructor
  · rintro ⟨hmem, hreaches⟩
    have hself : ∀ b ∈ f.registry.participants,
        f.registry.reachedOver k b = (b == place k) := by
      intro b hb
      rw [Bool.eq_iff_iff, beq_iff_eq]
      refine ⟨fun hover => (h.accord.reaches_of_reachedOver hover).1, ?_⟩
      rintro rfl
      exact reachedOver_of_reaches hreaches
    rw [List.filter_congr hself, List.filter_beq,
      List.count_eq_one_of_mem (participants_nodup h.accord.sound) hmem]
    rfl
  · intro hnot
    refine List.filter_eq_nil_iff.mpr fun b hb hover => hnot ?_
    obtain ⟨rfl, hreaches⟩ := h.accord.reaches_of_reachedOver hover
    exact ⟨hb, hreaches⟩

/-- A broadcast is taken by those who take part, and by nobody else. -/
theorem Agreed.takes_broadcast (h : Agreed place size f) (m : Message) (k : Nat) (p : Prospect) :
    (f.TakesPart place k → p.takes ((f.registry.participants.filter (f.registry.reachedOver k)).map
      fun _ => m) = p.take m) ∧
    (¬ f.TakesPart place k → p.takes
      ((f.registry.participants.filter (f.registry.reachedOver k)).map fun _ => m) = p) := by
  obtain ⟨hpart, hnot⟩ := h.filter_reachedOver k
  exact ⟨fun hk => by rw [hpart hk]; rfl, fun hk => by rw [hnot hk]; rfl⟩

/-! ### Sorting the actions -/

theorem reaches_of_roll {r r' : Registry} (h : r'.roll = r.roll) :
    r'.ledger.Reaches place k ↔ r.ledger.Reaches place k := by
  change r'.roll.cache.get? _ = _ ∧ r'.roll.links.isOpen _ = _ ↔ _
  rw [h]
  rfl

theorem takesPart_of_roll (h : g.registry.roll = f.registry.roll) :
    g.TakesPart place k ↔ f.TakesPart place k := by
  rw [TakesPart, Registry.participants_of_roll h, reaches_of_roll h, TakesPart]

/-- Nothing changes for those who are reached. -/
theorem Passes.of_same
    (hreaches : ∀ k, g.registry.ledger.Reaches place k → f.registry.ledger.Reaches place k)
    (hprospect : ∀ k, g.prospect k = f.prospect k) : Passes place f g :=
  ⟨fun k hk => .inl ⟨hreaches k hk, by rw [hprospect]⟩,
    fun k => hprospect k ▸ List.Sublist.refl _⟩

section Acts

variable {a : Registry.Action} {post : LinkId → List Message}

/-- What is heard is pending no more, and the rest stays pending. -/
theorem Answered.pending (ha : Answered a post f.up g.up f.prospect g.prospect)
    (hpost : ∀ m ∈ post k, m.bearsOnSent = false) :
    (f.prospect k).pending =
      (heard k a).filterMap Message.reported? ++ (g.prospect k).pending ∧
    (g.prospect k).account.sent = (f.prospect k).account.sent := by
  obtain ⟨q, hq, hq'⟩ := ha.prospect k
  obtain ⟨hsent, hpending⟩ := q.takes_of_not_bears hpost
  rw [hq, hq']
  exact ⟨congrArg (_ ++ ·) hpending.symm, hsent⟩

/-- What bears on nothing that is sent, passes. -/
theorem Passes.of_answered (ha : Answered a post f.up g.up f.prospect g.prospect)
    (hpost : ∀ k, ∀ m ∈ post k, m.bearsOnSent = false)
    (hreaches : ∀ k, g.registry.ledger.Reaches place k → f.registry.ledger.Reaches place k ∨
      place k ∉ g.registry.participants ∧ (f.prospect k).account.sent = 0) :
    Passes place f g := by
  refine ⟨fun k hk => ?_, fun k => ?_⟩
  · obtain ⟨-, hsent⟩ := ha.pending (hpost k)
    refine (hreaches k hk).imp (fun h => ⟨h, hsent⟩) fun ⟨hnot, hzero⟩ => ⟨hnot, hsent.trans hzero⟩
  · obtain ⟨hpending, -⟩ := ha.pending (hpost k)
    rw [hpending]
    exact List.sublist_append_right _ _

theorem not_bears_of_answer {r : Registry} {link : LinkId} {m : Message}
    (h : m.bearsOnSent = false) : ∀ x ∈ r.answering link m k, x.bearsOnSent = false := by
  intro x hx
  obtain ⟨-, -, rfl⟩ := Registry.mem_answering hx
  exact h

/-- An action that hears nothing only adds to what is under way. -/
theorem Answered.prospect_eq (ha : Answered a post f.up g.up f.prospect g.prospect)
    (hdeaf : heard k a = []) : g.prospect k = (f.prospect k).takes (post k) := by
  obtain ⟨q, hq, hq'⟩ := ha.prospect k
  rw [hdeaf] at hq
  rw [hq, hq']
  rfl

/-- A summary that is heard was the first that was pending. -/
theorem Answered.summary {s : Summary}
    (ha : Answered (.received k (.trafficSummaryReport s)) (fun _ => []) f.up g.up f.prospect
      g.prospect) :
    (f.prospect k).pending = (s.id, s.sent.toNat) :: (g.prospect k).pending ∧
    (∀ j, j ≠ k → (g.prospect j).pending = (f.prospect j).pending) ∧
    ∀ j, (g.prospect j).account = (f.prospect j).account := by
  have hpending := fun j => (ha.pending (k := j) fun _ hm => absurd hm List.not_mem_nil).1
  refine ⟨?_, fun j hj => ?_, fun j => (ha.account_of_nil rfl).1⟩
  · rw [hpending k, heard, if_pos rfl]
    rfl
  · rw [hpending j, heard, if_neg hj.symm]
    rfl

/-- Whoever leaves, the others are as they were. -/
theorem Passes.of_drop {l : Ledger} {id : NodeId} {b : PeerAddress}
    (hl : g.registry.ledger = (l.without id b).abandon b)
    (hreaches : ∀ k, l.Reaches place k → f.registry.ledger.Reaches place k)
    (hsent : ∀ k, (g.prospect k).account.sent = (f.prospect k).account.sent)
    (hpending : ∀ k, (g.prospect k).pending.Sublist (f.prospect k).pending) : Passes place f g := by
  refine ⟨fun k hk => .inl ⟨hreaches k ?_, hsent k⟩, hpending⟩
  rw [hl] at hk
  exact (reaches_of_drop hk).2

/-- A ledger on which nothing has changed that bears on a report. -/
theorem Passage.of_ledger {l : Ledger} (hl : g.registry.ledger = l)
    (hphase : l.phase = f.registry.phase) (hoverlay : l.roll.overlay = f.registry.overlay)
    (hexpected : l.expected = f.registry.progress.expected)
    (hcollector : l.collector = f.registry.collector) (hsame : Passes place f g) :
    Passage place f x g := by
  subst hl
  exact .passes hsame (.inl hphase) hoverlay hexpected hcollector

/-- Whoever leaves, an overlay is abandoned or all goes on. -/
theorem Passage.of_drop {l : Ledger} {id : NodeId} {b : PeerAddress}
    (hl : g.registry.ledger = (l.without id b).abandon b)
    (hphase : l.phase = f.registry.phase) (hoverlay : l.roll.overlay = f.registry.overlay)
    (hexpected : l.expected = f.registry.progress.expected)
    (hcollector : l.collector = f.registry.collector) (hsame : Passes place f g) :
    Passage place f x g := by
  rcases (l.without id b).abandon_cases b with ⟨-, -, -, hidle⟩ | ⟨hkept, -⟩
  · rw [hidle] at hl
    exact .lapses hsame (.inl (congrArg Ledger.phase hl))
  · rw [hkept] at hl
    exact .of_ledger hl hphase hoverlay hexpected hcollector hsame

/-- **What the registry does is sorted so.** -/
theorem Agreed.passage_acts (h : Agreed place size f)
    (of : x.command? = some a ∨ ∃ k m, a = .received k m)
    (hd : Deed f.registry a g.registry.ledger post)
    (ha : Answered a post f.up g.up f.prospect g.prospect) : Passage place f x g := by
  generalize hl : g.registry.ledger = l at hd
  have hreaches : l.roll = f.registry.roll → ∀ k, g.registry.ledger.Reaches place k →
      f.registry.ledger.Reaches place k :=
    fun hroll k hk => (reaches_of_roll ((congrArg Ledger.roll hl).trans hroll)).mp hk
  cases hd with
  | stays =>
    refine .of_ledger hl rfl rfl rfl rfl
      (.of_answered ha (fun _ _ hm => absurd hm List.not_mem_nil) fun k hk => .inl ?_)
    exact hreaches rfl k hk
  | @refuses k request m hm =>
    have hplain : m.bearsOnSent = false := by
      obtain ⟨info, rfl | rfl⟩ := hm
      · rfl
      · rfl
    refine .of_ledger hl rfl rfl rfl rfl
      (.of_answered ha (fun _ => not_bears_of_answer hplain) fun k hk => .inl ?_)
    exact hreaches rfl k hk
  | advances hp =>
    have hsame : Passes place f g := .of_answered ha (fun _ _ hm => absurd hm List.not_mem_nil)
      fun k hk => .inl (hreaches rfl k hk)
    have hphase : g.registry.phase = _ := congrArg Ledger.phase hl
    refine .passes hsame (.inr ?_) (congrArg Ledger.overlay hl) (congrArg Ledger.expected hl)
      (congrArg Ledger.collector hl)
    exact hp.imp (fun hp => ⟨hp.1, hphase.trans hp.2⟩) fun hp => ⟨hp.1, hphase.trans hp.2⟩
  | @admits k peer b id info hpeer hnew =>
    have hrequest : .nodeRegisters b ∈ f.up k := by
      rw [ha.up k, heard, if_pos rfl]
      exact List.mem_cons_self
    refine .of_ledger hl rfl rfl rfl rfl
      (.of_answered ha (fun _ => not_bears_of_answer rfl) fun j hj => ?_)
    rw [hl] at hj
    obtain ⟨hb, ⟨-, hreached⟩ | ⟨rfl, hfresh⟩⟩ := h.accord.reaches_register hrequest hj
    · exact .inl hreached
    · refine .inr ⟨fun hpart => ?_, by rw [hfresh]; rfl⟩
      rw [Registry.participants_of_overlay (congrArg Ledger.overlay hl), ← hb] at hpart
      have hmember := Registry.hasAddress_of_participant h.accord.sound hpart
      exact absurd hmember (Bool.eq_false_iff.mp hnew)
  | @releases k b id info he =>
    have hplain : ∀ j, ∀ m ∈ f.registry.answering k (.deregistrationStatus id.status info) j,
        m.bearsOnSent = false := fun j => not_bears_of_answer rfl
    refine .of_drop hl rfl rfl rfl rfl (.of_drop hl (fun _ hk => hk) (fun j => ?_) fun j => ?_)
    · exact (ha.pending (hplain j)).2
    · rw [(ha.pending (hplain j)).1]
      exact List.sublist_append_right _ _
  | setsUp hrun htables =>
    refine .lapses (.of_answered ha (fun j m hm => ?_) fun k hk => .inl ?_)
      (.inr ⟨hrun, congrArg Ledger.phase hl⟩)
    · obtain ⟨y, -, rfl⟩ := List.mem_map.mp hm
      rfl
    · rw [hl] at hk
      exact hk
  | @starts count hcount hphase htold =>
    have hx : x = .start count := by
      rcases of with of | ⟨k, m, hm⟩
      · cases x with
        | start c => cases of; rfl
        | _ => cases of
      · cases hm
    refine .starts hx hcount hphase (congrArg Ledger.phase hl) (congrArg Ledger.roll hl)
      (fun k hk => ?_) fun k hk => ?_
    · rw [ha.prospect_eq rfl]
      exact (h.takes_broadcast _ k _).1 hk
    · rw [ha.prospect_eq rfl]
      exact (h.takes_broadcast _ k _).2 hk
  | asks hphase htold =>
    have hexpected := length_told h.accord.sound
    refine .asks hphase (congrArg Ledger.phase hl) (congrArg Ledger.roll hl)
      (congrArg Ledger.collector hl) ((congrArg Ledger.expected hl).trans hexpected)
      (fun k hk => ?_) fun k hk => ?_
    · rw [ha.prospect_eq rfl]
      exact (h.takes_broadcast _ k _).1 hk
    · rw [ha.prospect_eq rfl]
      exact (h.takes_broadcast _ k _).2 hk
  | asksNobody hphase htold =>
    refine .asksNobody hphase (congrArg Ledger.phase hl) (congrArg Ledger.roll hl) (fun k hk => ?_)
      fun k => ha.prospect_eq rfl
    have hnone := Registry.filter_reachedOver_of_told htold k
    rw [(h.filter_reachedOver k).1 hk] at hnone
    cases hnone
  | @collects k s hphase hmore =>
    obtain ⟨hheard, hothers, haccounts⟩ := ha.summary
    exact .hears k s hphase (.inl ⟨(congrArg Ledger.phase hl).trans hphase,
      congrArg Ledger.collector hl, congrArg Ledger.expected hl⟩) (congrArg Ledger.roll hl) hheard
      hothers haccounts
  | @publishes k s hphase hall =>
    obtain ⟨hheard, hothers, haccounts⟩ := ha.summary
    exact .hears k s hphase (.inr ⟨congrArg Ledger.phase hl, hall⟩) (congrArg Ledger.roll hl) hheard
      hothers haccounts

end Acts

/-- **Every action is one of those listed.** -/
theorem Agreed.passage (h : Agreed place size f) (x : Action) : Passage place f x (f.act x) := by
  have hturn := (h.proper.act x).2
  generalize f.act x = g at hturn
  have hsound : Sound size [] f.registry.roll := h.accord.sound
  cases hturn with
  | joins address peer ledger homes up prospect published =>
    refine .of_ledger ledger rfl rfl rfl rfl (.of_same (fun k hk => ?_) prospect)
    exact h.accord.reaches_of_connect (ledger ▸ hk)
  | stirs ledger homes up prospect published =>
    refine .of_ledger ledger rfl rfl rfl rfl (.of_same (fun k => ?_) prospect)
    exact (reaches_of_roll (congrArg Ledger.roll ledger)).mp
  | parts k ledger homes up prospect published =>
    refine .of_ledger ledger rfl rfl rfl rfl ⟨fun j hj => .inl ?_, fun j => ?_⟩
    · rw [ledger] at hj
      obtain ⟨hjk, hreached⟩ := reaches_of_close hj
      exact ⟨hreached, by rw [(prospect j).resolve_right fun hk => hjk hk.1]⟩
    · rcases prospect j with hsame | ⟨-, -, hprefix⟩
      · rw [hsame]
      · exact hprefix.sublist
  | acts a of ledger deed homes up prospect published =>
    exact h.passage_acts of deed ⟨up, prospect⟩
  | notices w ledger closed homes up prospect published =>
    rcases Registry.ledger_connectionLost (hsound.unwatch w) with hsame | ⟨id, he, -, hdropped⟩
    · have hl := ledger.trans hsame
      refine .of_ledger hl rfl rfl rfl rfl (.of_same (fun k hk => ?_) prospect)
      rw [hl] at hk
      exact hk
    · refine .of_drop (ledger.trans hdropped) rfl rfl rfl rfl (.of_drop (ledger.trans hdropped)
        (fun _ hk => hk) (fun k => by rw [prospect]) fun k => by rw [prospect])

end Fleet

end RingOverlay
