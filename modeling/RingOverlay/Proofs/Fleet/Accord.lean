import RingOverlay.Proofs.Fleet.Turn

/-!
# Fleet — the registry and its nodes agree

What the registry has on record of a node, and the node's prospect, agree: whom the registry reaches
holds its connection, will have the identifier that it is registered under, and, if it takes part in
the overlay, will know the identifiers of all.  `Accord` is this together with what makes it last:
the cache has each node under its own address, a node that has asked to register is not reached yet,
and nobody asks for another's registration to end.

* `Accord.turn`: **whatever a fleet does, its registry and its nodes agree.**
-/

namespace RingOverlay

/-- Whether a message is an order that leaves a registration as it is. -/
def Message.isTask : Message → Bool
  | nodeManifest .. | taskInitiate _ | trafficSummaryRequest => true
  | _ => false

namespace Ledger

/-- The registry reaches node `k` under the address that it listens at. -/
def Reaches (l : Ledger) (place : Nat → PeerAddress) (k : Nat) : Prop :=
  l.roll.cache.get? (place k) = some k ∧ l.roll.links.isOpen k = true

/-- The ledger with other watches, which bear on nothing else in it. -/
def watching (l : Ledger) (ws : List Watch) : Ledger :=
  { l with roll := { l.roll with watches := ws } }

end Ledger

/-! ### What a node makes of answers and tasks -/

namespace Account

theorem originate_id (acc : Account) (count : Nat) : (acc.originate count).id = acc.id := by
  unfold originate
  split
  · split <;> rfl
  · rfl

theorem originate_nodeIds (acc : Account) (count : Nat) :
    (acc.originate count).nodeIds = acc.nodeIds := by
  unfold originate
  split
  · split <;> rfl
  · rfl

theorem handle_request_same (acc : Account) : (acc.handle .trafficSummaryRequest).id = acc.id ∧
    (acc.handle .trafficSummaryRequest).nodeIds = acc.nodeIds := by
  cases hid : acc.id with
  | none =>
    rw [(handle_request_of_none hid).1]
    exact ⟨hid, rfl⟩
  | some id =>
    rw [(handle_request_of_some hid).1]
    exact ⟨hid, rfl⟩

theorem id_handle_of_isTask (acc : Account) {m : Message} (h : m.isTask = true) :
    (acc.handle m).id = acc.id := by
  cases m with
  | nodeManifest _ _ => rfl
  | taskInitiate count => exact acc.originate_id count.toNat
  | trafficSummaryRequest => exact acc.handle_request_same.1
  | _ => cases h

/-- A status that stands for an identifier is no failure, and assigns that identifier. -/
theorem status_facts (id : NodeId) :
    ¬ id.status < 0 ∧ NodeId.ofInt id.status.toInt = .ok id := by
  revert id
  decide

theorem handle_assigned (acc : Account) (id : NodeId) (info : String) :
    acc.handle (.registrationStatus id.status info) = { acc with id := some id } := by
  obtain ⟨hpos, hid⟩ := status_facts id
  rw [handle_accepted _ hpos, hid]

theorem handle_failure (acc : Account) {m : Message}
    (h : ∃ info, m = .registrationStatus failureStatus info ∨
      m = .deregistrationStatus failureStatus info) :
    acc.handle m = acc ∧ acc.reports? m = none ∧ m.dismisses = false := by
  obtain ⟨info, rfl | rfl⟩ := h
  · exact ⟨rfl, rfl, rfl⟩
  · exact ⟨rfl, rfl, rfl⟩

end Account

namespace Prospect

variable {p : Prospect}

/-- A refusal changes nothing. -/
theorem take_failure (p : Prospect) {m : Message}
    (h : ∃ info, m = .registrationStatus failureStatus info ∨
      m = .deregistrationStatus failureStatus info) : p.take m = p := by
  cases hholds : p.holds with
  | false => exact take_of_not_holds hholds m
  | true =>
    obtain ⟨hsame, hnone, hstays⟩ := p.account.handle_failure h
    rw [take_of_holds hholds, hsame, hnone, hstays]
    change Prospect.mk p.account (p.pending ++ []) true = p
    rw [List.append_nil, ← hholds]

/-- No task ends a registration. -/
theorem takes_tasks (p : Prospect) {ms : List Message} (h : ∀ m ∈ ms, m.isTask = true) :
    (p.takes ms).account.id = p.account.id ∧ (p.takes ms).holds = p.holds := by
  induction ms generalizing p with
  | nil => exact ⟨rfl, rfl⟩
  | cons m ms ih =>
    obtain ⟨hid, hholds⟩ := ih (p.take m) fun m' hm' => h m' (.tail _ hm')
    rw [takes_cons, hid, hholds]
    cases hnow : p.holds with
    | false => exact ⟨by rw [take_of_not_holds hnow], by rw [take_of_not_holds hnow, hnow]⟩
    | true =>
      have htask := h m (.head _)
      rw [take_of_holds hnow]
      refine ⟨p.account.id_handle_of_isTask htask, ?_⟩
      cases m with
      | deregistrationStatus => cases htask
      | _ => rfl

/-- After manifests of one overlay, a node knows that overlay. -/
theorem takes_manifests (hnow : p.holds = true) (ids : List NodeId) {ts : List FingerTable}
    (hts : ts ≠ []) :
    (p.takes (ts.map fun t => .nodeManifest t ids)).account.nodeIds = ids := by
  induction ts generalizing p with
  | nil => exact absurd rfl hts
  | cons t ts ih =>
    rw [List.map_cons, takes_cons]
    have hstays : (p.take (.nodeManifest t ids)).holds = true := by rw [take_of_holds hnow]; rfl
    by_cases hlast : ts = []
    · rw [hlast, List.map_nil, takes_nil, take_of_holds hnow]
      rfl
    · exact ih hstays hlast

/-- Other tasks leave what a node knows of the overlay. -/
theorem takes_of_same (p : Prospect) {ms : List Message} {m : Message} (hms : ∀ x ∈ ms, x = m)
    (hsame : ∀ acc : Account, (acc.handle m).nodeIds = acc.nodeIds) :
    (p.takes ms).account.nodeIds = p.account.nodeIds := by
  induction ms generalizing p with
  | nil => rfl
  | cons x ms ih =>
    obtain rfl := hms x (.head _)
    rw [takes_cons, ih _ fun y hy => hms y (.tail _ hy)]
    cases hnow : p.holds with
    | false => rw [take_of_not_holds hnow]
    | true =>
      rw [take_of_holds hnow]
      exact hsame p.account

end Prospect

namespace Fleet

open Registry (Sound Deed)

/-- What the registry knows of its nodes is so: `place` is where each listens, `up` is what is in
flight from it, and `p` its prospect. -/
structure Accord (place : Nat → PeerAddress) (size : Nat) (l : Ledger)
    (up : Nat → List Message) (p : Nat → Prospect) : Prop where
  sound : Sound size [] l.roll
  home : ∀ a k, l.roll.cache.get? a = some k → a = place k
  /-- A node that is to be registered has been told nothing yet. -/
  asking : ∀ k a, .nodeRegisters a ∈ up k →
    (∃ rest, up k = .nodeRegisters (place k) :: rest ∧ ∀ b, .nodeRegisters b ∉ rest) ∧
    (∀ b, l.roll.cache.get? b ≠ some k) ∧ (p k = .fresh ∨ l.roll.links.isOpen k = false)
  leaving : ∀ k a id, .nodeDeregisters a id ∈ up k → a = place k
  known : ∀ k, l.Reaches place k → (p k).holds = true ∧
    ∃ id, ⟨id, place k⟩ ∈ l.roll.membership.members ∧ (p k).account.id = some id
  laidOut : ∀ o k, l.roll.overlay = some o → place k ∈ o.participants → l.Reaches place k →
    (p k).account.nodeIds = o.tables.map Prod.fst

variable {place : Nat → PeerAddress} {size : Nat} {l l' : Ledger}
  {up up' : Nat → List Message} {p p' : Nat → Prospect} {r : Registry}

/-- Whoever takes part in an overlay is registered. -/
theorem Accord.reaches_of_reachedOver (h : Accord place size r.ledger up p) {k : Nat}
    {b : PeerAddress} (hb : r.reachedOver k b = true) : b = place k ∧ r.ledger.Reaches place k := by
  obtain ⟨hcached, hopen⟩ := Registry.reachedOver_iff.mp hb
  obtain rfl := h.home b k hcached
  exact ⟨rfl, hcached, hopen⟩

theorem reachedOver_of_reaches {k : Nat} (h : r.ledger.Reaches place k) :
    r.reachedOver k (place k) = true :=
  Registry.reachedOver_iff.mpr h

/-! ### Leaving -/

/-- Whom the registry reaches without the node at `a`, it reached before. -/
theorem reaches_of_drop {id : NodeId} {a : PeerAddress} {k : Nat}
    (h : ((l.without id a).abandon a).Reaches place k) : place k ≠ a ∧ l.Reaches place k := by
  obtain ⟨hcached, hopen⟩ := h
  rw [Ledger.cache_abandon] at hcached
  rw [Ledger.links_abandon] at hopen
  by_cases ha : place k = a
  · rw [Ledger.without, ha, Cache.get?_erase_self] at hcached
    cases hcached
  · exact ⟨ha, (Cache.get?_erase_of_ne _ _ ha).symm.trans hcached, hopen⟩

/-- When the node at `a` leaves, the others are known as before. -/
theorem Accord.drop (h : Accord place size l up p) (ws : List Watch) {id : NodeId}
    {a : PeerAddress} (he : ⟨id, a⟩ ∈ l.roll.membership.members)
    (hsound : Sound size [] (((l.watching ws).without id a).abandon a).roll)
    (hasking : ∀ k a', .nodeRegisters a' ∈ up' k → up' k = up k ∧ p' k = p k)
    (hleaving : ∀ k, up' k ⊆ up k)
    (haccount : ∀ k, place k ≠ a → (p' k).account = (p k).account ∧
      (p' k).holds = (p k).holds) :
    Accord place size (((l.watching ws).without id a).abandon a) up' p' := by
  have hcached : ∀ b k, (((l.watching ws).without id a).abandon a).roll.cache.get? b = some k →
      l.roll.cache.get? b = some k := by
    intro b k hb
    rw [Ledger.cache_abandon] at hb
    by_cases hba : b = a
    · rw [Ledger.without, hba, Cache.get?_erase_self] at hb
      cases hb
    · exact (Cache.get?_erase_of_ne _ _ hba).symm.trans hb
  refine ⟨hsound, fun b k hb => h.home b k (hcached b k hb), fun k a' hask => ?_,
    fun k a' id' hleave => h.leaving k a' id' (hleaving k hleave), fun k hk => ?_,
    fun o k ho hpart hk => ?_⟩
  · obtain ⟨hup, hp⟩ := hasking k a' hask
    rw [hup, hp, Ledger.links_abandon]
    obtain ⟨hfirst, hnone, hfresh⟩ := h.asking k a' (hup ▸ hask)
    exact ⟨hfirst, fun b hb => hnone b (hcached b k hb), hfresh⟩
  · obtain ⟨hne, hreached⟩ := reaches_of_drop hk
    obtain ⟨hholds, id', he', hid'⟩ := h.known k hreached
    obtain ⟨hacc, hsame⟩ := haccount k hne
    refine ⟨hsame.trans hholds, id', ?_, by rw [hacc, hid']⟩
    rw [Ledger.membership_abandon]
    refine Membership.mem_erase.mpr ⟨he', fun hid => hne ?_⟩
    exact congrArg Entry.address (h.sound.members.eq_of_id he' he hid)
  · obtain ⟨hne, hreached⟩ := reaches_of_drop hk
    rw [(haccount k hne).1]
    rcases ((l.watching ws).without id a).abandon_cases a with ⟨-, -, -, hgone⟩ | ⟨hkept, -⟩
    · rw [hgone] at ho
      cases ho
    · rw [hkept] at ho
      exact h.laidOut o k ho hpart hreached

/-! ### Staying -/

/-- What the registry has on record stays, and so does what its nodes are told they are. -/
theorem Accord.keep (h : Accord place size l up p) (hsound : Sound size [] l'.roll)
    (hmembership : l'.roll.membership = l.roll.membership) (hcache : l'.roll.cache = l.roll.cache)
    (hlinks : l'.roll.links = l.roll.links)
    (hasking : ∀ k a, .nodeRegisters a ∈ up' k → up' k = up k ∧ p' k = p k)
    (hleaving : ∀ k, up' k ⊆ up k)
    (hknown : ∀ k, l.Reaches place k →
      (p' k).holds = (p k).holds ∧ (p' k).account.id = (p k).account.id)
    (hlaid : ∀ o k, l'.roll.overlay = some o → place k ∈ o.participants → l.Reaches place k →
      (p' k).account.nodeIds = o.tables.map Prod.fst) : Accord place size l' up' p' := by
  have hreaches : ∀ {k}, l'.Reaches place k → l.Reaches place k := by
    intro k hk
    rwa [Ledger.Reaches, hcache, hlinks] at hk
  refine ⟨hsound, fun b k hb => h.home b k (hcache ▸ hb), fun k a hask => ?_,
    fun k a id hleave => h.leaving k a id (hleaving k hleave), fun k hk => ?_,
    fun o k ho hpart hk => hlaid o k ho hpart (hreaches hk)⟩
  · obtain ⟨hup, hp⟩ := hasking k a hask
    rw [hup, hp, hcache, hlinks]
    exact h.asking k a (hup ▸ hask)
  · obtain ⟨hholds, id, he, hid⟩ := h.known k (hreaches hk)
    obtain ⟨hholds', hid'⟩ := hknown k (hreaches hk)
    exact ⟨hholds'.trans hholds, id, hmembership ▸ he, hid'.trans hid⟩

/-- With other things on its way, a node that keeps its account agrees with the registry as it
did. -/
theorem Accord.laid_of_same (h : Accord place size l up p)
    (hoverlay : l'.roll.overlay = l.roll.overlay)
    (hsame : ∀ k, l.Reaches place k → (p' k).account.nodeIds = (p k).account.nodeIds)
    (o : Overlay) (k : Nat) (ho : l'.roll.overlay = some o) (hpart : place k ∈ o.participants)
    (hk : l.Reaches place k) : (p' k).account.nodeIds = o.tables.map Prod.fst :=
  (hsame k hk).trans (h.laidOut o k (hoverlay ▸ ho) hpart hk)

/-! ### What the registry does -/

section Deeds

variable {a : Registry.Action} {post : LinkId → List Message}

/-- What is still under way after an action of the registry, and what it has added. -/
structure Answered (a : Registry.Action) (post : LinkId → List Message)
    (up up' : Nat → List Message) (p p' : Nat → Prospect) : Prop where
  up : ∀ j, up j = heard j a ++ up' j
  prospect : ∀ j, ∃ q : Prospect, p j = q.owing ((heard j a).filterMap Message.reported?) ∧
    p' j = q.takes (post j)

theorem Answered.subset (h : Answered a post up up' p p') (j : Nat) : up' j ⊆ up j := by
  rw [h.up j]
  exact List.subset_append_right _ _

/-- What is heard is not pending any more, and bears on nothing else. -/
theorem Answered.account (h : Answered a post up up' p p') (j : Nat) :
    (p' j).account = ((p j).takes (post j)).account ∧
    (p' j).holds = ((p j).takes (post j)).holds := by
  obtain ⟨q, hq, hq'⟩ := h.prospect j
  rw [hq, hq', Prospect.takes_owing]
  exact ⟨rfl, rfl⟩

theorem Answered.account_of_nil (h : Answered a post up up' p p') {j : Nat} (hpost : post j = []) :
    (p' j).account = (p j).account ∧ (p' j).holds = (p j).holds := by
  have hsame := h.account j
  rwa [hpost] at hsame

/-- Tasks leave it to a node who it is. -/
theorem Answered.tasks (h : Answered a post up up' p p') {j : Nat}
    (hpost : ∀ m ∈ post j, m.isTask = true) :
    (p' j).holds = (p j).holds ∧ (p' j).account.id = (p j).account.id := by
  obtain ⟨hacc, hholds⟩ := h.account j
  obtain ⟨hid, hstays⟩ := (p j).takes_tasks hpost
  exact ⟨hholds.trans hstays, hacc ▸ hid⟩

/-- A node whose request is still to be heard has been told nothing. -/
theorem Accord.asking_of_answered (h : Accord place size r.ledger up p) (hd : Deed r a l post)
    (ha : Answered a post up up' p p') {k : Nat} {b : PeerAddress}
    (hask : .nodeRegisters b ∈ up' k) : up' k = up k ∧ p' k = p k := by
  obtain ⟨⟨rest, hrest, hfirst⟩, hnone, -⟩ := h.asking k b (ha.subset k hask)
  have hdeaf : heard k a = [] := by
    cases hheard : heard k a with
    | nil => rfl
    -- the request is the first that is heard, and there is no other
    | cons m ms =>
      have hup := ha.up k
      rw [hheard, hrest] at hup
      obtain ⟨-, htail⟩ := List.cons_eq_cons.mp hup
      exact absurd (htail ▸ List.mem_append_right ms hask) (hfirst b)
  have hsilent : post k = [] := by
    by_contra hpost
    rcases (hd.queued_on hpost).2 with ⟨m, rfl⟩ | ⟨c, hc⟩
    · rw [heard, if_pos rfl] at hdeaf
      cases hdeaf
    · obtain ⟨-, hcached, -⟩ := h.reaches_of_reachedOver hc
      exact hnone _ hcached
  refine ⟨by rw [ha.up k, hdeaf]; rfl, ?_⟩
  obtain ⟨q, hq, hq'⟩ := ha.prospect k
  rw [hq, hq', hdeaf, hsilent]
  rfl

/-- Who is registered was to be, and is reached together with those who were before. -/
theorem Accord.reaches_register (h : Accord place size r.ledger up p) {k j : Nat}
    {b : PeerAddress} {id : NodeId} (hask : .nodeRegisters b ∈ up k)
    (hj : (r.ledger.register id b k).Reaches place j) :
    b = place k ∧ (j ≠ k ∧ r.ledger.Reaches place j ∨ j = k ∧ p j = .fresh) := by
  obtain ⟨⟨rest, hrest, hfirst⟩, -, hfresh⟩ := h.asking k b hask
  rw [hrest] at hask
  obtain rfl : b = place k :=
    Message.nodeRegisters.inj ((List.mem_cons.mp hask).resolve_right (hfirst b))
  obtain ⟨hcached, hopen⟩ := hj
  replace hcached : (r.cache.put (place k) k).get? (place j) = some j := hcached
  refine ⟨rfl, ?_⟩
  by_cases hjk : j = k
  · obtain rfl := hjk
    exact .inr ⟨rfl, hfresh.resolve_right fun hclosed =>
      Bool.false_ne_true (hclosed.symm.trans hopen)⟩
  · refine .inl ⟨hjk, ?_, hopen⟩
    by_cases haddress : place j = place k
    · rw [haddress] at hcached
      exact absurd (Option.some.inj ((Cache.get?_put_self r.cache _ k).symm.trans hcached)).symm hjk
    · exact (Cache.get?_put_of_ne _ _ _ haddress).symm.trans hcached

/-- Who is registered is told so, and is known from then on. -/
theorem Accord.register (h : Accord place size r.ledger up p) {k : LinkId} {b : PeerAddress}
    {id : NodeId} {info : String} (hsound : Sound size [] (r.ledger.register id b k).roll)
    (hnew : r.membership.hasAddress b = false)
    (ha : Answered (.received k (.nodeRegisters b))
      (r.answering k (.registrationStatus id.status info)) up up' p p')
    (hasking : ∀ k b, .nodeRegisters b ∈ up' k → up' k = up k ∧ p' k = p k) :
    Accord place size (r.ledger.register id b k) up' p' := by
  have hheard : up k = .nodeRegisters b :: up' k := by
    rw [ha.up k, heard, if_pos rfl]
    rfl
  have hrequest : .nodeRegisters b ∈ up k := hheard ▸ List.mem_cons_self
  obtain ⟨⟨rest, hrest, hfirst⟩, -, -⟩ := h.asking k b hrequest
  obtain ⟨hb, hup⟩ := List.cons_eq_cons.mp (hheard.symm.trans hrest)
  obtain rfl : b = place k := Message.nodeRegisters.inj hb
  have hcached : ∀ {c j}, (r.cache.put (place k) k).get? c = some j →
      c = place k ∧ j = k ∨ r.cache.get? c = some j := by
    intro c j hc
    by_cases hck : c = place k
    · rw [hck] at hc
      exact .inl ⟨hck, (Option.some.inj ((Cache.get?_put_self r.cache _ k).symm.trans hc)).symm⟩
    · exact .inr ((Cache.get?_put_of_ne _ _ _ hck).symm.trans hc)
  have hothers : ∀ {j}, j ≠ k → (p' j).account = (p j).account ∧ (p' j).holds = (p j).holds :=
    fun hne => ha.account_of_nil (Registry.answering_of_ne hne.symm _)
  refine ⟨hsound, fun c j hc => ?_, fun j c hask => ?_,
    fun j c i hleave => h.leaving j c i (ha.subset j hleave), fun j hj => ?_,
    fun o j ho hpart hj => ?_⟩
  · rcases hcached hc with ⟨hck, hjk⟩ | hc
    · rw [hck, hjk]
    · exact h.home c j hc
  · obtain ⟨hsame, hp⟩ := hasking j c hask
    have hne : j ≠ k := by
      rintro rfl
      exact hfirst c (hup ▸ hask)
    obtain ⟨hhead, hnone, hstill⟩ := h.asking j c (hsame ▸ hask)
    rw [hsame, hp]
    refine ⟨hhead, fun d hd => ?_, hstill⟩
    exact (hcached hd).elim (fun hself => hne hself.2) (hnone d)
  · rcases (h.reaches_register hrequest hj).2 with ⟨hjk, hreached⟩ | ⟨rfl, hfresh⟩
    · obtain ⟨hholds, i, he, hid⟩ := h.known j hreached
      obtain ⟨hacc, hsame⟩ := hothers hjk
      exact ⟨hsame.trans hholds, i, Membership.mem_insert.mpr (.inr he), by rw [hacc, hid]⟩
    · have hopen : r.links.isOpen j = true := hj.2
      obtain ⟨hacc, hholds⟩ := ha.account j
      rw [Registry.answering_self hopen, hfresh] at hacc hholds
      refine ⟨hholds, id, Membership.mem_insert.mpr (.inl rfl), ?_⟩
      rw [hacc]
      exact congrArg Account.id (Account.handle_assigned .zero id info)
  · have ho' : r.overlay = some o := ho
    rcases (h.reaches_register hrequest hj).2 with ⟨hjk, hreached⟩ | ⟨rfl, -⟩
    · rw [(hothers hjk).1]
      exact h.laidOut o j ho' hpart hreached
    -- who takes part is registered, and so not new
    · have hmem : place j ∈ r.participants := by
        rw [Registry.participants, ho']
        exact hpart
      exact absurd (Registry.hasAddress_of_participant h.sound hmem) (Bool.eq_false_iff.mp hnew)

/-- Who is reached when an overlay is set up, is told of it. -/
theorem Accord.knows_of_setUp (h : Accord place size r.ledger up p) {tableSize : Nat}
    {tables : List (NodeId × FingerTable)}
    (htables : Layout.tables r.membership.members tableSize = .ok tables) {k : Nat}
    (hpart : place k ∈ r.membership.members.map Entry.address) (hk : r.ledger.Reaches place k) :
    ((p k).takes (((r.membership.members.zip tables).filter fun x =>
      r.reachedOver k x.1.address).map fun x =>
        .nodeManifest x.2.2 r.membership.ids)).account.nodeIds = tables.map Prod.fst := by
  have hids : tables.map Prod.fst = r.membership.members.map Entry.id := Layout.tables_ids htables
  have hlength : r.membership.members.length ≤ tables.length := by
    rw [← List.length_map Prod.fst, hids, List.length_map]
  -- the manifest of the member at this address is among those sent to it
  obtain ⟨e, he, haddress⟩ := List.mem_map.mp hpart
  rw [← List.map_fst_zip hlength] at he
  obtain ⟨x, hx, rfl⟩ := List.mem_map.mp he
  have hreached : r.reachedOver k x.1.address = true := haddress ▸ reachedOver_of_reaches hk
  have hsome : ((r.membership.members.zip tables).filter fun x =>
      r.reachedOver k x.1.address).map (fun x => x.2.2) ≠ [] :=
    List.ne_nil_of_mem (List.mem_map_of_mem (List.mem_filter.mpr ⟨hx, hreached⟩))
  have htold := Prospect.takes_manifests (h.known k hk).1 r.membership.ids hsome
  rw [List.map_map] at htold
  exact htold.trans hids.symm

/-- **Whatever the registry does, it agrees with its nodes.** -/
theorem Accord.deed (h : Accord place size r.ledger up p) (hsound : Sound size [] l.roll)
    (hd : Deed r a l post) (ha : Answered a post up up' p p') : Accord place size l up' p' := by
  have hasking : ∀ k b, .nodeRegisters b ∈ up' k → up' k = up k ∧ p' k = p k :=
    fun k b => h.asking_of_answered hd ha
  have hsame : (∀ j, (p' j).account = (p j).account ∧ (p' j).holds = (p j).holds) →
      l.roll = r.roll → Accord place size l up' p' := by
    intro hp hroll
    refine h.keep hsound (by rw [hroll]; rfl) (by rw [hroll]; rfl) (by rw [hroll]; rfl) hasking
      ha.subset (fun k _ => ⟨(hp k).2, by rw [(hp k).1]⟩) ?_
    exact h.laid_of_same (by rw [hroll]; rfl) fun k _ => by rw [(hp k).1]
  have htasks : ∀ (m : Message) {xs : LinkId → List PeerAddress}, m.isTask = true →
      (∀ acc : Account, (acc.handle m).nodeIds = acc.nodeIds) →
      (post = fun j => (xs j).map fun _ => m) → l.roll = r.roll → Accord place size l up' p' := by
    intro m xs htask hm hpost hroll
    have hall : ∀ j, ∀ x ∈ post j, x = m := by
      intro j x hx
      rw [hpost] at hx
      obtain ⟨-, -, rfl⟩ := List.mem_map.mp hx
      rfl
    refine h.keep hsound (by rw [hroll]; rfl) (by rw [hroll]; rfl) (by rw [hroll]; rfl) hasking
      ha.subset (fun k _ => ha.tasks fun x hx => (hall k x hx).symm ▸ htask) ?_
    refine h.laid_of_same (by rw [hroll]; rfl) fun k _ => ?_
    rw [(ha.account k).1]
    exact (p k).takes_of_same (hall k) hm
  cases hd with
  | stays | advances | asksNobody | collects | publishes =>
    exact hsame (fun j => ha.account_of_nil rfl) rfl
  | refuses hm =>
    refine hsame (fun j => ?_) rfl
    obtain ⟨hacc, hholds⟩ := ha.account j
    rw [hacc, hholds]
    unfold Registry.answering
    split
    · rw [Prospect.takes_cons, Prospect.take_failure _ hm]
      exact ⟨rfl, rfl⟩
    · exact ⟨rfl, rfl⟩
  | admits id info hpeer hnew => exact h.register hsound hnew ha hasking
  | @releases k b id info he =>
    have hb : b = place k := by
      refine h.leaving k b id ?_
      rw [ha.up k, heard, if_pos rfl]
      exact List.mem_cons_self
    refine h.drop r.watches he hsound hasking ha.subset fun j hj =>
      ha.account_of_nil (Registry.answering_of_ne (fun hkj => ?_) _)
    exact hj (hkj ▸ hb.symm)
  | starts hcount hphase htold =>
    exact htasks (.taskInitiate _) rfl (fun acc => acc.originate_nodeIds _) rfl rfl
  | asks hphase htold => exact htasks _ rfl (fun acc => acc.handle_request_same.2) rfl rfl
  | setsUp hrun htables =>
    refine h.keep hsound rfl rfl rfl hasking ha.subset (fun k _ => ha.tasks fun m hm => ?_)
      fun o k ho hpart hk => ?_
    · obtain ⟨x, -, rfl⟩ := List.mem_map.mp hm
      rfl
    · obtain rfl := Option.some.inj ho
      rw [(ha.account k).1]
      exact h.knows_of_setUp htables hpart hk

end Deeds

/-! ### Every action -/

variable {f g : Fleet} {x : Action}

theorem Accord.opened (place : Nat → PeerAddress) (config : RegistryConfig) (draws : Draws) :
    Accord place config.ringSize (opened config draws).registry.ledger (opened config draws).up
      (opened config draws).prospect where
  sound := Registry.sound_initial config draws
  home _ _ h := nomatch h
  asking _ _ h := nomatch h
  leaving _ _ _ h := nomatch h
  known _ h := nomatch h.1
  laidOut _ _ h := nomatch h

/-- What a node that has joined may send is no request to register, and asks for nobody else's
registration to end. -/
theorem isFrom_facts {m : Message} {a : PeerAddress} (h : m.isFrom a = true) :
    (∀ b, m ≠ .nodeRegisters b) ∧ ∀ b id, m = .nodeDeregisters b id → b = a := by
  refine ⟨fun b hm => ?_, fun b id hm => ?_⟩
  · subst hm
    cases h
  · subst hm
    exact beq_iff_eq.mp h

theorem Accord.stir (h : Accord place size l up p)
    (hup : ∀ j, ∃ ms, up' j = up j ++ ms ∧ ∀ m ∈ ms, m.isFrom (place j) = true)
    (hp : ∀ j, p' j = p j) : Accord place size l up' p' := by
  obtain rfl : p' = p := funext hp
  refine ⟨h.sound, h.home, fun k a hask => ?_, fun k a id hleave => ?_, h.known, h.laidOut⟩
  · obtain ⟨ms, hms, hfrom⟩ := hup k
    have hnew : ∀ b, .nodeRegisters b ∉ ms := fun b hb => (isFrom_facts (hfrom _ hb)).1 b rfl
    rw [hms] at hask
    obtain ⟨⟨rest, hrest, hnone⟩, hothers⟩ :=
      h.asking k a ((List.mem_append.mp hask).resolve_right (hnew a))
    refine ⟨⟨rest ++ ms, by rw [hms, hrest]; rfl, fun b hb => ?_⟩, hothers⟩
    exact (List.mem_append.mp hb).elim (hnone b) (hnew b)
  · obtain ⟨ms, hms, hfrom⟩ := hup k
    rw [hms] at hleave
    rcases List.mem_append.mp hleave with hleave | hleave
    · exact h.leaving k a id hleave
    · exact (isFrom_facts (hfrom _ hleave)).2 a id rfl

/-- Over a connection that has closed, nobody is reached. -/
theorem reaches_of_close {j k : Nat} (h : (r.close k).ledger.Reaches place j) :
    j ≠ k ∧ r.ledger.Reaches place j := by
  obtain ⟨hcached, hopen⟩ := h
  refine ⟨?_, hcached, Links.isOpen_of_close hopen⟩
  rintro rfl
  exact Bool.false_ne_true ((Links.isOpen_close_self r.links j).symm.trans hopen)

/-- A connection that closes reaches nobody any more. -/
theorem Accord.part (h : Accord place size r.ledger up p) {k : Nat}
    (hsound : Sound size [] (r.close k).roll)
    (hp : ∀ j, p' j = p j ∨ j = k) : Accord place size (r.close k).ledger up p' := by
  have hsame : ∀ {j}, j ≠ k → p' j = p j := fun hne => (hp _).resolve_right hne
  refine ⟨hsound, h.home, fun j a hask => ?_, h.leaving, fun j hj => ?_, fun o j ho hpart hj => ?_⟩
  · obtain ⟨hfirst, hnone, hfresh⟩ := h.asking j a hask
    refine ⟨hfirst, hnone, ?_⟩
    by_cases hjk : j = k
    · obtain rfl := hjk
      exact .inr (Links.isOpen_close_self r.links j)
    · rw [hsame hjk]
      refine hfresh.imp_right fun hclosed => Bool.eq_false_iff.mpr fun hopen => ?_
      exact Bool.false_ne_true (hclosed.symm.trans (Links.isOpen_of_close hopen))
  · obtain ⟨hjk, hreached⟩ := reaches_of_close hj
    rw [hsame hjk]
    exact h.known j hreached
  · obtain ⟨hjk, hreached⟩ := reaches_of_close hj
    rw [hsame hjk]
    exact h.laidOut o j ho hpart hreached

/-- What is cached was made before what is made next. -/
theorem Accord.not_cached_fresh (h : Accord place size r.ledger up p) (b : PeerAddress) :
    r.cache.get? b ≠ some r.links.ends.length := by
  intro hb
  obtain ⟨far, hfar, -⟩ := h.sound.observed b _ hb
  exact Nat.lt_irrefl _ (Links.end?_isSome_iff.mp (Option.isSome_of_eq_some hfar))

/-- A connection that is made reaches nobody yet. -/
theorem Accord.reaches_of_connect (h : Accord place size r.ledger up p) {j : Nat} {peer : Peer}
    (hj : (r.connect peer).ledger.Reaches place j) : r.ledger.Reaches place j := by
  obtain ⟨hcached, hopen⟩ := hj
  have hne : j ≠ r.links.ends.length := by
    rintro rfl
    exact h.not_cached_fresh _ hcached
  exact ⟨hcached, (Links.isOpen_connect_of_ne hne).symm.trans hopen⟩

/-- A node that joins is not reached until it is registered. -/
theorem Accord.join (h : Accord place size r.ledger up p) {k : Nat} {peer : Peer}
    (hk : k = r.links.ends.length) (hsound : Sound size [] (r.connect peer).roll)
    (hup : ∀ j, up' j = if j = k then [.nodeRegisters (place j)] else up j)
    (hfresh : p k = .fresh) : Accord place size (r.connect peer).ledger up' p := by
  refine ⟨hsound, h.home, fun j a hask => ?_, fun j a id hleave => ?_,
    fun j hj => h.known j (h.reaches_of_connect hj),
    fun o j ho hpart hj => h.laidOut o j ho hpart (h.reaches_of_connect hj)⟩
  · rw [hup] at hask ⊢
    by_cases hjk : j = k
    · obtain rfl := hjk
      rw [if_pos rfl]
      exact ⟨⟨[], rfl, fun _ hb => absurd hb List.not_mem_nil⟩, hk ▸ h.not_cached_fresh,
        .inl hfresh⟩
    · rw [if_neg hjk] at hask ⊢
      obtain ⟨hfirst, hnone, hstill⟩ := h.asking j a hask
      exact ⟨hfirst, hnone, hstill.imp_right (Links.isOpen_connect_of_ne (hk ▸ hjk)).trans⟩
  · rw [hup] at hleave
    split at hleave
    · cases List.mem_singleton.mp hleave
    · exact h.leaving j a id hleave

/-- **Whatever a fleet does, its registry and its nodes agree.** -/
theorem Accord.turn (hf : Proper f) (h : Accord place size f.registry.ledger f.up f.prospect)
    (hg : Listed place g) (ht : Turn f x g) :
    Accord place size g.registry.ledger g.up g.prospect := by
  have hsound : Sound size [] f.registry.roll := h.sound
  cases ht with
  | joins address peer ledger homes up prospect published =>
    obtain rfl := hg.of_joined homes
    rw [ledger, show g.prospect = f.prospect from funext prospect]
    refine h.join hf.connected.symm (hsound.act (.connected peer)) (fun j => ?_) hf.prospect_fresh
    rw [up j]
    split
    · next hj => rw [hj]
    · rfl
  | stirs ledger homes up prospect published =>
    rw [ledger]
    refine h.stir (fun j => ?_) prospect
    obtain ⟨ms, hms, hfrom⟩ := up j
    exact ⟨ms, hms, fun m hm => (hg.of_homes homes.symm).isFrom (hfrom m hm)⟩
  | parts k ledger homes up prospect published =>
    rw [ledger, show g.up = f.up from funext up]
    exact h.part (hsound.act (.closed k)) fun j => (prospect j).imp_right And.left
  | acts a of ledger deed homes up prospect published =>
    refine h.deed ?_ deed ⟨up, prospect⟩
    rw [ledger]
    exact hsound.act a
  | notices w ledger closed homes up prospect published =>
    have hunwatched := hsound.unwatch w
    have hlost : Sound size [] ({ f.registry with
        watches := f.registry.watches.erase w }.connectionLost w).ledger.roll :=
      hunwatched.connectionLost
    rw [ledger, show g.up = f.up from funext up, show g.prospect = f.prospect from funext prospect]
    rcases Registry.ledger_connectionLost hunwatched with hsame | ⟨id, he, -, hdropped⟩
    · rw [hsame] at hlost ⊢
      refine h.keep hlost rfl rfl rfl (fun _ _ _ => ⟨rfl, rfl⟩) (fun _ => List.Subset.refl _)
        (fun _ _ => ⟨rfl, rfl⟩) ?_
      exact h.laid_of_same rfl fun _ _ => rfl
    · rw [hdropped] at hlost ⊢
      exact h.drop _ he hlost (fun _ _ _ => ⟨rfl, rfl⟩) (fun _ => List.Subset.refl _)
        fun _ _ => ⟨rfl, rfl⟩

end Fleet

end RingOverlay
