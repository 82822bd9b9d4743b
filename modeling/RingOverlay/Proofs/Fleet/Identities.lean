import RingOverlay.Proofs.Fleet.Reports

/-!
# Fleet — who holds which identifier

The registry gives an identifier away again as soon as it has let go of it, and before the node that
had it hears of that.  So a node may hold an identifier that the registry has on record for another,
or for nobody, but only while it is parted from the registry (`Parted`), or while the word that its
registration has ended is on its way to it (`Released`).

`Backed` is the invariant: as long as both ends of its connection hold a node, what it goes by, or
is about to be told to go by, is on record, or its dismissal is on its way.  For a step, all that
counts is which claims it adds and which records it takes away (`Backed.step`).

* `Accounted.act`: **whatever a fleet does, its nodes are backed.**
* `identities_agree`: **a node that holds an identifier is on record for it, or released, or
  parted**, and of two that hold one, one is released or parted.
-/

namespace RingOverlay

namespace Account

variable {acc : Account} {m : Message} {id : NodeId}

theorem status_of_ofInt {status : Int32} (h : NodeId.ofInt status.toInt = .ok id) :
    status = id.status := by
  unfold NodeId.ofInt at h
  split at h
  · next hring =>
    cases h
    refine Int32.toInt_inj.mp ?_
    have hlt : status.toInt.toNat < 2147483648 := by
      have := hring.2
      unfold ringSize at this
      omega
    rw [NodeId.status, Int32.toInt_ofNat_of_lt hlt, Int.toNat_of_nonneg hring.1]
  · cases h

/-- Nobody comes to an identifier but by being told. -/
theorem id_of_handle (hstays : m.dismisses = false) (h : (acc.handle m).id = some id) :
    acc.id = some id ∨ ∃ info, m = .registrationStatus id.status info := by
  cases m with
  | registrationStatus status info =>
    by_cases hneg : status < 0
    · rw [handle_refused _ hneg] at h
      exact .inl h
    · rw [handle_accepted _ hneg] at h
      cases hid : NodeId.ofInt status.toInt with
      | error e =>
        rw [hid] at h
        exact .inl h
      | ok id' =>
        rw [hid] at h
        obtain rfl : id' = id := Option.some.inj h
        exact .inr ⟨info, by rw [status_of_ofInt hid]⟩
  | deregistrationStatus status info =>
    have hneg : status < 0 := by simpa [Message.dismisses] using hstays
    rw [handle_retained _ hneg] at h
    exact .inl h
  | nodeManifest | taskInitiate | trafficSummaryRequest =>
    rw [acc.id_handle_of_isTask rfl] at h
    exact .inl h
  | _ => exact .inl h

end Account

/-- A node lets go of its end of a connection, and goes on as before. -/
theorem Node.answers_close {n : Node} {link : LinkId} (hn : n.Seated link)
    (hsilent : n.effects = []) : n.Answers link n.account [] false (n.close link) := by
  have hends : (n.links.close link).ends = n.links.ends := Links.ends_close link
  have hclosed := Links.isOpen_close_self n.links link
  have hsaid : ∀ l m, .sent l m ∉ (n.close link).effects := by
    intro l m hm
    rw [show (n.close link).effects = [] from hsilent] at hm
    cases hm
  refine ⟨rfl, rfl, ⟨?_, fun h => ?_, hn.counted⟩, ?_, hclosed, ?_, fun l m hm => ?_,
    fun l m hm => ?_⟩
  · exact Nat.lt_of_lt_of_eq hn.made (congrArg List.length hends.symm)
  · exact absurd (hclosed.symm.trans h) Bool.false_ne_true
  · exact hends ▸ List.prefix_refl (n.links.close link).ends
  · rw [show (n.close link).effects = [] from hsilent]
    rfl
  · exact absurd hm (hsaid l m)
  · exact absurd hm (hsaid l m)

namespace Fleet

open Registry (Sound Deed)

/-- What may happen to a fleet.  Beyond what its runs do, one end of a connection may close and the
other not, or later. -/
inductive Occurs (config : RegistryConfig) (draws : Draws) : Fleet → Prop where
  | opened : Occurs config draws (opened config draws)
  | act {f : Fleet} (h : Occurs config draws f) (x : Action) : Occurs config draws (f.act x)
  /-- The registry's end of a connection closes. -/
  | closes {f : Fleet} (h : Occurs config draws f) (k : Nat) : Occurs config draws (f.closeAt k)
  /-- A node's end of its connection to the registry closes. -/
  | hangsUp {f : Fleet} {k : Nat} {n : Node} (h : Occurs config draws f)
      (hn : f.nodes[k]? = some n) : Occurs config draws (f.collectNode k (n.close registryLink))

/-- The registry has ended the registration of node `k`, and the word of it is on its way. -/
def Released (f : Fleet) (k : Nat) : Prop := ∃ m ∈ f.down k, m.dismisses = true

/-- The connection of node `k` to the registry has closed, at one end at least. -/
def Parted (f : Fleet) (k : Nat) : Prop :=
  f.holdsRegistry k = false ∨ k ∈ f.registry.links.closed

/-- What node `k` may say to the registry, if it listens where `place` says. -/
def Says (place : Nat → PeerAddress) (k : Nat) (m : Message) : Prop :=
  m.isFrom (place k) = true ∨ m = .nodeRegisters (place k)

/-- A node goes by an identifier, or is about to be told to. -/
def Claims (p : Prospect) (ms : List Message) (id : NodeId) : Prop :=
  p.account.id = some id ∨ ∃ info, .registrationStatus id.status info ∈ ms

/-- Whatever nodes claim is on record, unless their dismissal is on its way: `up` and `down` is what
is in flight from each and to each, and `p` what it is at present. -/
structure Backed (place : Nat → PeerAddress) (size : Nat) (s : Roll)
    (up down : Nat → List Message) (p : Nat → Prospect) : Prop where
  sound : Sound size [] s
  home : ∀ a k, s.cache.get? a = some k → a = place k
  said : ∀ k, ∀ m ∈ up k, Says place k m
  backed : ∀ k id, (p k).holds = true → s.links.isOpen k = true → Claims (p k) (down k) id →
    ⟨id, place k⟩ ∈ s.membership.members ∨ ∃ m ∈ down k, m.dismisses = true

/-- Up to `n` nodes, each listens at an address of its own. -/
def Apart (place : Nat → PeerAddress) (n : Nat) : Prop :=
  ∀ j k, j < n → k < n → place j = place k → j = k

variable {place : Nat → PeerAddress} {size k : Nat} {s s' : Roll}
  {up up' down down' : Nat → List Message} {p p' : Nat → Prospect} {f g : Fleet} {n n' : Node} {m : Message} {id : NodeId}

/-! ### Addresses -/

/-- Nodes that listen at addresses of their own are told apart by them. -/
theorem Listed.apart (h : Listed place f) (hown : (f.nodes.map Node.address).Nodup) :
    Apart place f.nodes.length := by
  have hplace : ∀ k, k < f.nodes.length → f.homes[k]? = some (place k) := by
    intro k hk
    have hhome := List.getElem?_eq_getElem (f.length_homes ▸ hk)
    rw [hhome, ← h k _ hhome]
  intro j k hj hk heq
  refine (List.getElem?_inj (f.length_homes ▸ hj) hown).mp ?_
  change f.homes[j]? = f.homes[k]?
  rw [hplace j hj, hplace k hk, heq]

theorem Apart.mono {n n' : Nat} (h : Apart place n') (hle : n ≤ n') : Apart place n :=
  fun j k hj hk => h j k (Nat.lt_of_lt_of_le hj hle) (Nat.lt_of_lt_of_le hk hle)

theorem address_of_says {a : PeerAddress} (h : Says place k m)
    (hm : m = .nodeRegisters a ∨ ∃ id, m = .nodeDeregisters a id) : a = place k := by
  rcases h with hfrom | rfl
  · obtain ⟨hask, hleave⟩ := isFrom_facts hfrom
    rcases hm with rfl | ⟨id, rfl⟩
    · exact absurd rfl (hask a)
    · exact hleave a id rfl
  · rcases hm with hm | ⟨id, hm⟩
    · exact (Message.nodeRegisters.inj hm).symm
    · cases hm

/-! ### What keeps nodes backed -/

/-- **A step, told by the claims it adds and the records it takes away.**  What a node claims after
it, it claimed before or is on record for; and who loses its record is dismissed. -/
theorem Backed.step (h : Backed place size s up down p) (hsound : Sound size [] s')
    (hhome : ∀ a k, s'.cache.get? a = some k → a = place k)
    (hsaid : ∀ k, ∀ m ∈ up' k, Says place k m)
    (hclaims : ∀ k id, (p' k).holds = true → s'.links.isOpen k = true →
      Claims (p' k) (down' k) id → ⟨id, place k⟩ ∈ s'.membership.members ∨
        (p k).holds = true ∧ s.links.isOpen k = true ∧ Claims (p k) (down k) id)
    (hrecords : ∀ k id, s'.links.isOpen k = true → ⟨id, place k⟩ ∈ s.membership.members →
      ⟨id, place k⟩ ∈ s'.membership.members ∨ ∃ m ∈ down' k, m.dismisses = true)
    (hdismissals : ∀ k, (p' k).holds = true → ∀ m ∈ down k, m.dismisses = true → m ∈ down' k) :
    Backed place size s' up' down' p' := by
  refine ⟨hsound, hhome, hsaid, fun k id hholds hopen hclaim => ?_⟩
  rcases hclaims k id hholds hopen hclaim with hmember | ⟨hheld, hmade, hold⟩
  · exact .inl hmember
  rcases h.backed k id hheld hmade hold with hmember | ⟨m, hm, hdismisses⟩
  · exact hrecords k id hopen hmember
  · exact .inr ⟨m, hdismissals k hholds m hm hdismisses, hdismisses⟩

/-! ### What the registry does -/

theorem claims_append {p : Prospect} {ms ns : List Message} : Claims p (ms ++ ns) id ↔
    Claims p ms id ∨ ∃ info, .registrationStatus id.status info ∈ ns := by
  unfold Claims
  simp only [List.mem_append, exists_or, or_assoc]

/-- Neither a task nor a refusal tells a node what to go by. -/
theorem not_assigned (h : m.isTask = true ∨ ∃ info,
    m = .registrationStatus failureStatus info ∨ m = .deregistrationStatus failureStatus info)
    (info : String) : m ≠ .registrationStatus id.status info := by
  rintro rfl
  rcases h with h | ⟨info', h | h⟩
  · cases h
  · have hstatus : id.status = failureStatus := (Message.registrationStatus.inj h).1
    exact (Account.status_facts id).1 (hstatus ▸ by decide)
  · cases h

section Deeds

variable {r : Registry} {l : Ledger} {a : Registry.Action} {post : LinkId → List Message}

/-- What tells nobody what to go by, and takes nobody off the roll. -/
theorem Backed.told (h : Backed place size s up down p) (hsound : Sound size [] s')
    (hmembership : s'.membership = s.membership) (hcache : s'.cache = s.cache)
    (hlinks : s'.links = s.links)
    (hpost : ∀ j, ∀ m ∈ post j, m.isTask = true ∨ ∃ info,
      m = .registrationStatus failureStatus info ∨ m = .deregistrationStatus failureStatus info) :
    Backed place size s' up (fun j => down j ++ post j) p := by
  refine h.step hsound (fun b k hb => h.home b k (hcache ▸ hb)) h.said
    (fun k id hholds hopen hclaim => ?_) (fun k id _ he => .inl (hmembership ▸ he))
    fun k _ m hm _ => List.mem_append_left _ hm
  rcases claims_append.mp hclaim with hold | ⟨info, hm⟩
  · exact .inr ⟨hholds, hlinks ▸ hopen, hold⟩
  · exact absurd rfl (not_assigned (hpost k _ hm) info)

/-- Who is registered is on record for what it is told. -/
theorem Backed.register (h : Backed place size r.roll up down p) (info : String)
    (hsound : Sound size [] (r.ledger.register id (place k) k).roll) :
    Backed place size (r.ledger.register id (place k) k).roll up
      (fun j => down j ++ r.answering k (.registrationStatus id.status info) j) p := by
  refine h.step hsound (fun b j hb => ?_) h.said (fun j id' hholds hopen hclaim => ?_)
    (fun j id' _ he => .inl (Membership.mem_insert.mpr (.inr he)))
    fun j _ m hm _ => List.mem_append_left _ hm
  · replace hb : (r.cache.put (place k) k).get? b = some j := hb
    by_cases hbk : b = place k
    · rw [hbk, Cache.get?_put_self] at hb
      rw [hbk, Option.some.inj hb]
    · exact h.home b j ((Cache.get?_put_of_ne _ _ _ hbk).symm.trans hb)
  · rcases claims_append.mp hclaim with hold | ⟨info', hm⟩
    · exact .inr ⟨hholds, hopen, hold⟩
    · obtain ⟨rfl, -, hsame⟩ := Registry.mem_answering hm
      obtain rfl : id' = id := by
        have hstatus : id'.status = id.status := (Message.registrationStatus.inj hsame).1
        have hid' := (Account.status_facts id').2
        rw [hstatus, (Account.status_facts id).2] at hid'
        exact (Except.ok.inj hid').symm
      exact .inl (Membership.mem_insert.mpr (.inl rfl))

/-- When the node at an address is taken off the roll, that is the one that has to be dismissed. -/
theorem Backed.drop (h : Backed place size l.roll up down p) (ws : List Watch) {a : PeerAddress}
    (he : ⟨id, a⟩ ∈ l.roll.membership.members)
    (hsound : Sound size [] (((l.watching ws).without id a).abandon a).roll)
    (hpost : ∀ j, ∀ m ∈ post j, ∀ (id : NodeId) info, m ≠ .registrationStatus id.status info)
    (hgone : ∀ j, l.roll.links.isOpen j = true → place j = a →
      ∃ m ∈ post j, m.dismisses = true) :
    Backed place size (((l.watching ws).without id a).abandon a).roll up
      (fun j => down j ++ post j) p := by
  have hlinks : (((l.watching ws).without id a).abandon a).roll.links = l.roll.links :=
    Ledger.links_abandon _ _
  refine h.step hsound (fun b k hb => ?_) h.said (fun k id' hholds hopen hclaim => ?_)
    (fun k id' hopen he' => ?_) fun k _ m hm _ => List.mem_append_left _ hm
  · rw [Ledger.cache_abandon] at hb
    refine h.home b k ?_
    by_cases hba : b = a
    · rw [Ledger.without, hba, Cache.get?_erase_self] at hb
      cases hb
    · exact (Cache.get?_erase_of_ne _ _ hba).symm.trans hb
  · rcases claims_append.mp hclaim with hold | ⟨info, hm⟩
    · exact .inr ⟨hholds, hlinks ▸ hopen, hold⟩
    · exact absurd rfl (hpost k _ hm id' info)
  · by_cases hid : id' = id
    · have haddress := congrArg Entry.address (h.sound.members.eq_of_id he' he hid)
      obtain ⟨m, hm, hdismisses⟩ := hgone k (hlinks ▸ hopen) haddress
      exact .inr ⟨m, List.mem_append_right _ hm, hdismisses⟩
    · refine .inl ?_
      rw [Ledger.membership_abandon]
      exact Membership.mem_erase.mpr ⟨he', hid⟩

/-- **Whatever the registry does, its nodes are backed.** -/
theorem Backed.deed (h : Backed place size r.roll up down p) (hsound : Sound size [] l.roll)
    (hd : Deed r a l post)
    (hspoke : ∀ k m, a = .received k m → k < r.links.ends.length ∧ Says place k m)
    (hapart : Apart place r.links.ends.length) :
    Backed place size l.roll up (fun j => down j ++ post j) p := by
  cases hd with
  | stays | advances | asksNobody | collects | publishes =>
    exact h.told hsound rfl rfl rfl fun j m hm => absurd hm List.not_mem_nil
  | refuses hm =>
    refine h.told hsound rfl rfl rfl fun j m' hm' => ?_
    obtain ⟨-, -, rfl⟩ := Registry.mem_answering hm'
    exact .inr hm
  | starts | asks =>
    refine h.told hsound rfl rfl rfl fun j m hm => ?_
    obtain ⟨-, -, rfl⟩ := List.mem_map.mp hm
    exact .inl rfl
  | setsUp =>
    refine h.told hsound rfl rfl rfl fun j m hm => ?_
    obtain ⟨-, -, rfl⟩ := List.mem_map.mp hm
    exact .inl rfl
  | @admits k peer b id info hpeer hnew =>
    obtain rfl := address_of_says (hspoke k _ rfl).2 (.inl rfl)
    exact h.register info hsound
  | @releases k b id info he =>
    obtain ⟨hk, hsaid⟩ := hspoke k _ rfl
    obtain rfl := address_of_says hsaid (.inr ⟨id, rfl⟩)
    refine Backed.drop (l := r.ledger) h r.watches he hsound (fun j m hm id' info' => ?_)
      fun j hopen hj => ?_
    · obtain ⟨-, -, rfl⟩ := Registry.mem_answering hm
      rintro ⟨⟩
    · obtain rfl := hapart j k (Links.isOpen_iff.mp hopen).1 hk hj
      rw [Registry.answering_self hopen]
      refine ⟨_, List.mem_singleton_self _, ?_⟩
      rw [Message.dismisses, decide_eq_false (Account.status_facts id).1]
      rfl

end Deeds

/-! ### Every action -/

/-- A fleet that is put together as it should be, and whose nodes are backed. -/
structure Accounted (place : Nat → PeerAddress) (size : Nat) (f : Fleet) : Prop where
  proper : Proper f
  listed : Listed place f
  backed : Backed place size f.registry.roll f.up f.down f.present

variable {acc : Account} {reports : List (NodeId × Nat)} {holds : Bool} {lane : Lane}
  {parcel : Parcel} {rest : List Parcel}

/-- A node that speaks is backed as it was. -/
theorem Accounted.stirred (h : Accounted place size f) (hn : f.nodes[k]? = some n)
    (hs : Stirred f k n.account reports holds g)
    (hholds : holds = true → n.links.isOpen registryLink = true) : Accounted place size g := by
  refine ⟨hs.proper, h.listed.of_homes hs.homes,
    hs.registry ▸ h.backed.step h.backed.sound h.backed.home (fun j m hm => ?_)
    (fun j id hheld hopen hclaim => .inr ?_) (fun j id _ he => .inl he)
    fun j _ m hm _ => hs.down j ▸ hm⟩
  · obtain ⟨ms, hup, hfrom⟩ := hs.up j
    rw [hup] at hm
    exact (List.mem_append.mp hm).elim (h.backed.said j m) fun hnew =>
      .inl (h.listed.isFrom (hfrom m hnew))
  · rw [hs.down] at hclaim
    by_cases hj : j = k
    · obtain rfl := hj
      have hself := present_of_some hn
      rw [hs.self] at hheld hclaim
      rw [Claims, hself]
      exact ⟨hholds hheld, hopen, hclaim⟩
    · rw [hs.others j hj] at hheld hclaim
      exact ⟨hheld, hopen, hclaim⟩

/-- Without a parcel that was to go to a node that has let go of the registry, or to somebody else,
all are backed as they were. -/
theorem Accounted.forget (h : Accounted place size f)
    (htake : Fleet.takeFrom lane f.inFlight = some (parcel, rest))
    (hlost : ∀ j, parcel.lane = .down j → (f.present j).holds = false) :
    Accounted place size { f with inFlight := rest } := by
  let f₁ : Fleet := { f with inFlight := rest }
  have hdown : ∀ j, (f₁.present j).holds = true → f₁.down j = f.down j := by
    intro j hheld
    refine down_takeFrom_of_ne htake j fun hlane => ?_
    exact Bool.false_ne_true ((hlost j hlane).symm.trans hheld)
  refine ⟨h.proper.takeFrom htake, h.listed, h.backed.step h.backed.sound h.backed.home
    (fun j m hm => ?_) (fun j id hheld hopen hclaim => .inr ?_) (fun j id _ he => .inl he)
    fun j hheld m hm _ => (hdown j hheld).symm ▸ hm⟩
  · refine h.backed.said j m ?_
    rw [up_takeFrom htake]
    exact List.mem_append_right _ hm
  · exact ⟨hheld, hopen, hdown j hheld ▸ hclaim⟩

/-- What a node takes from the registry, it has claimed before. -/
theorem Accounted.taken (h : Accounted place size f) (hn : f.nodes[k]? = some n)
    (hopen : n.links.isOpen registryLink = true)
    (htake : Fleet.takeFrom (.down k) f.inFlight = some (.toNode k m, rest))
    (hs : Stirred { f with inFlight := rest } k (n.account.handle m) reports (!m.dismisses) g) :
    Accounted place size g := by
  let f₁ : Fleet := { f with inFlight := rest }
  have hhead : f.down k = m :: f₁.down k := by
    rw [down_takeFrom htake, show (Parcel.toNode k m).on? (.down k) = some m from if_pos rfl]
    rfl
  have hother : ∀ j, j ≠ k → g.down j = f.down j := fun j hj =>
    (hs.down j).trans (down_takeFrom_of_ne htake j fun heq => hj (Lane.down.inj heq).symm)
  have hstays : (g.present k).holds = true → m.dismisses = false := by
    rw [hs.self]
    exact fun hheld => by simpa using hheld
  refine ⟨hs.proper, h.listed.of_homes hs.homes, hs.registry ▸ h.backed.step h.backed.sound
    h.backed.home (fun j x hx => ?_) (fun j id hheld hmade hclaim => .inr ⟨?_, hmade, ?_⟩)
    (fun j id _ he => .inl he) fun j hheld x hx hdismisses => ?_⟩
  · obtain ⟨ms, hup, hfrom⟩ := hs.up j
    have hsame : f₁.up j = f.up j := up_takeFrom_of_ne htake j fun heq => by cases heq
    rw [hup, hsame] at hx
    exact (List.mem_append.mp hx).elim (h.backed.said j x) fun hnew =>
      .inl (h.listed.isFrom (hfrom x hnew))
  · by_cases hj : j = k
    · obtain rfl := hj
      rw [present_of_some hn]
      exact hopen
    · exact (congrArg Prospect.holds (hs.others j hj)).symm.trans hheld
  · by_cases hj : j = k
    · obtain rfl := hj
      have hnow := hstays hheld
      rw [hs.self, hs.down] at hclaim
      rw [Claims, present_of_some hn, hhead]
      rcases hclaim with hid | ⟨info, hm⟩
      · rcases Account.id_of_handle hnow hid with hid | ⟨info, rfl⟩
        · exact .inl hid
        · exact .inr ⟨info, .head _⟩
      · exact .inr ⟨info, .tail _ hm⟩
    · rw [hother j hj, hs.others j hj] at hclaim
      exact hclaim
  · by_cases hj : j = k
    · obtain rfl := hj
      rw [hhead] at hx
      rw [hs.down]
      refine (List.mem_cons.mp hx).resolve_left ?_
      rintro rfl
      exact Bool.false_ne_true ((hstays hheld).symm.trans hdismisses)
    · rwa [hother j hj]

/-- What the registry does keeps its nodes backed. -/
theorem Accounted.acts (h : Accounted place size f) {a : Registry.Action}
    (hapart : Apart place f.nodes.length)
    (hdeed : Deed f.registry a (f.registry.act a).ledger (f.registry.posted a))
    (hspoke : ∀ k m, a = .received k m → k < f.nodes.length ∧ Says place k m) :
    Accounted place size (f.collectRegistry (f.registry.act a)) := by
  have hs := h.proper.acted hdeed
  have hbacked := h.backed.deed (h.backed.sound.act a) hdeed
    (h.proper.connected.symm ▸ hspoke) (h.proper.connected.symm ▸ hapart)
  have hup : (f.collectRegistry (f.registry.act a)).up = f.up := funext hs.up
  have hdown : (f.collectRegistry (f.registry.act a)).down =
      fun j => f.down j ++ f.registry.posted a j :=
    funext fun j => by rw [down_collectRegistry, h.proper.mail_act]
  have hpresent : (f.collectRegistry (f.registry.act a)).present = f.present :=
    funext fun j => present_congr rfl (hs.up j)
  refine ⟨hs.proper, h.listed, ?_⟩
  rw [hup, hdown, hpresent]
  exact hbacked

/-- With its connection closed at the registry's end, a node is parted. -/
theorem Accounted.closeAt (h : Accounted place size f) (k : Nat) :
    Accounted place size (f.closeAt k) :=
  ⟨(h.proper.turn_close k (.broke k)).1, h.listed,
    h.backed.step (h.backed.sound.act (.closed k)) h.backed.home h.backed.said
      (fun _ _ hheld hopen hclaim => .inr ⟨hheld, Links.isOpen_of_close hopen, hclaim⟩)
      (fun _ _ _ he => .inl he) fun _ _ _ hm _ => hm⟩

/-- A registration that is lost is that of a node that is parted. -/
theorem Accounted.notice (h : Accounted place size f) (hapart : Apart place f.nodes.length)
    (w : Watch) : Accounted place size (f.notice w) := by
  have hhomes : (f.notice w).homes = f.homes := by
    unfold Fleet.notice
    dsimp only
    split <;> rfl
  refine ⟨(h.proper.turn_notice w (.noticed w)).1, h.listed.of_homes hhomes, ?_⟩
  unfold Fleet.notice
  dsimp only
  split
  · next hw =>
    let r : Registry := { f.registry with watches := f.registry.watches.erase w }
    have hunwatched : Sound size [w] r.roll := h.backed.sound.unwatch w
    have hlost : Sound size [] (r.connectionLost w).ledger.roll := hunwatched.connectionLost
    have hup : (f.collectRegistry (r.connectionLost w)).up = f.up :=
      funext (up_collectRegistry f _)
    have hdown : (f.collectRegistry (r.connectionLost w)).down = fun j => f.down j ++ [] :=
      funext fun j => by rw [down_collectRegistry, h.proper.mail_lost]
    have hpresent : (f.collectRegistry (r.connectionLost w)).present = f.present :=
      funext fun j => present_congr rfl (up_collectRegistry f _ j)
    rw [hup, hdown, hpresent]
    change Backed place size (r.connectionLost w).ledger.roll _ _ _
    rcases Registry.ledger_connectionLost hunwatched with hsame | ⟨id, he, hcached, hdropped⟩
    · rw [hsame] at hlost ⊢
      exact h.backed.told hlost rfl rfl rfl fun j m hm => absurd hm List.not_mem_nil
    · rw [hdropped] at hlost ⊢
      refine Backed.drop (l := f.registry.ledger) h.backed _ he hlost
        (fun j m hm => absurd hm List.not_mem_nil) fun j hopen hj => ?_
      -- the node at that address is the one whose connection has closed
      have hlink : w.address = place w.link := h.backed.home w.address w.link hcached
      obtain ⟨far, hfar, -⟩ := h.backed.sound.observed w.address w.link hcached
      have hmade := Links.end?_isSome_iff.mp (Option.isSome_of_eq_some hfar)
      have hlength : f.registry.links.ends.length = f.nodes.length := h.proper.connected
      obtain rfl := hapart j w.link (hlength ▸ (Links.isOpen_iff.mp hopen).1) (hlength ▸ hmade)
        (hj.trans hlink)
      exact absurd hw.2 (Links.isOpen_iff.mp hopen).2
  · exact h.backed

/-- A node that joins has no identifier to claim. -/
theorem Accounted.join (h : Accounted place size f) (output : Bool) (address : PeerAddress)
    (peer : Peer) (hg : Listed place (f.join output address peer)) :
    Accounted place size (f.join output address peer) := by
  obtain ⟨n, rfl, haccount, hopen, henrolled, hjoin⟩ := f.join_eq_enrolling output address peer
  rw [hjoin] at hg ⊢
  have hplace : n.address = place f.nodes.length := hg.of_joined (f.homes_enrolling peer n)
  have hup := h.proper.up_enrolling peer n
  have hdown : (f.enrolling peer n).down = f.down := funext (f.down_enrolling peer n)
  have hpresent : (f.enrolling peer n).present = f.present :=
    funext (h.proper.present_enrolling peer haccount hopen)
  refine ⟨h.proper.enrolling peer henrolled, hg, ?_⟩
  rw [hdown, hpresent]
  refine h.backed.step (h.backed.sound.act (.connected peer)) h.backed.home (fun j m hm => ?_)
    (fun j id hheld hmade hclaim => .inr ?_) (fun j id _ he => .inl he) fun _ _ _ hm _ => hm
  · rw [hup] at hm
    split at hm
    · next hj =>
      refine .inr ?_
      rw [hj, ← hplace]
      exact List.mem_singleton.mp hm
    · exact h.backed.said j m hm
  · have hne : j ≠ f.registry.links.ends.length := by
      rw [h.proper.connected]
      rintro rfl
      rcases hclaim with hid | ⟨info, hm⟩
      · rw [present, standing, List.getElem?_eq_none (Nat.le_refl _)] at hid
        cases hid
      · rw [(h.proper.made _ (Nat.le_refl _)).2] at hm
        cases hm
    exact ⟨hheld, (Links.isOpen_connect_of_ne hne).symm.trans hmade, hclaim⟩

/-- With its connection broken, a node is parted. -/
theorem Accounted.breakLink (h : Accounted place size f) (k : Nat) :
    Accounted place size (f.breakLink k) := by
  have hproper := (h.proper.turn_break k (.broke k)).1
  unfold Fleet.breakLink at hproper ⊢
  split at hproper
  · exact h
  · next n hn =>
    refine ⟨hproper, h.listed.of_homes (homes_set hn rfl), ?_⟩
    refine h.backed.step (h.backed.sound.act (.closed k)) h.backed.home h.backed.said
      (fun j id hheld hopen hclaim => .inr ?_) (fun _ _ _ he => .inl he) fun _ _ _ hm _ => hm
    have hj : j ≠ k := by
      rintro rfl
      exact Bool.false_ne_true ((Links.isOpen_close_self f.registry.links j).symm.trans hopen)
    have hsame : ({ f with nodes := f.nodes.set k (n.close registryLink) }.closeAt k).present j =
        f.present j :=
      present_congr (List.getElem?_set_ne hj.symm) rfl
    rw [hsame] at hheld hclaim
    exact ⟨hheld, Links.isOpen_of_close hopen, hclaim⟩

/-- A node that asks to leave is backed as it was. -/
theorem Accounted.exit (h : Accounted place size f) (k : Nat) :
    Accounted place size (f.exit k).1 := by
  unfold Fleet.exit
  split
  · exact h
  · next n hn =>
    have hmember := h.proper.enrolled k n hn
    exact h.stirred hn (h.proper.stirred hn (Node.answers_exit hmember.seated hmember.silent)) id

/-- A message that is delivered keeps nodes backed. -/
theorem Accounted.delivered (h : Accounted place size f) (hapart : Apart place f.nodes.length)
    (lane : Lane) (draws : Draws) : Accounted place size (f.act (.delivered lane draws)) := by
  rw [Fleet.act]
  cases htake : Fleet.takeFrom lane f.inFlight with
  | none => exact h
  | some taken =>
    obtain ⟨parcel, rest⟩ := taken
    obtain ⟨hlane, -⟩ := carried_takeFrom htake
    subst hlane
    let f₁ : Fleet := { f with inFlight := rest }
    cases parcel with
    | toRegistry k m =>
      have h₁ : Accounted place size f₁ := h.forget htake fun j hlane => by cases hlane
      have hm : m ∈ f.up k := by
        rw [up_takeFrom htake, on?_toRegistry, if_pos rfl]
        exact List.mem_append_left _ (List.mem_singleton_self m)
      have hk : k < f.nodes.length := by
        by_contra hge
        rw [(h.proper.made k (Nat.le_of_not_lt hge)).1] at hm
        cases hm
      refine h₁.acts (a := .received k m) hapart (Registry.deed_received f₁.registry k m) ?_
      rintro j x ⟨⟩
      exact ⟨hk, h.backed.said k m hm⟩
    | hangUp k =>
      have h₁ : Accounted place size f₁ := h.forget htake fun j hlane => by cases hlane
      exact h₁.closeAt k
    | toPeer i k m =>
      have h₁ : Accounted place size f₁ := h.forget htake fun j hlane => by cases hlane
      change Accounted place size (f₁.receiveAt draws k m)
      rw [receiveAt]
      cases hn : f₁.nodes[k]? with
      | none => exact h₁
      | some n =>
        have hmember := h₁.proper.enrolled k n hn
        have horder := h.proper.across i k m (carried_takeFrom htake).2.1
        exact h₁.stirred hn (h₁.proper.stirred hn
          (Node.answers_aside horder hmember.seated hmember.silent f₁.reaches draws)) id
    | toNode k m =>
      obtain ⟨n, hn⟩ := h.proper.exists_node htake
      have hmember := h.proper.enrolled k n hn
      change Accounted place size (if f.holdsRegistry k then f₁.receiveAt draws k m else f₁)
      rw [holdsRegistry_of_some hn]
      cases hopen : n.links.isOpen registryLink with
      | false =>
        refine h.forget htake fun j hlane => ?_
        obtain rfl := Lane.down.inj hlane
        rw [present_of_some hn]
        exact hopen
      | true =>
        have hreceive : f₁.receiveAt draws k m =
            f₁.collectNode k (n.receive f₁.reaches draws registryLink m) := by
          rw [receiveAt, show f₁.nodes[k]? = some n from hn]
        rw [if_pos rfl, hreceive]
        exact h.taken hn hopen htake ((h.proper.takeFrom htake).stirred hn
          (Node.answers_receive hmember.seated hmember.silent hopen f₁.reaches draws m))

/-- **Whatever a fleet does, its nodes are backed.** -/
theorem Accounted.act (h : Accounted place size f) (hapart : Apart place f.nodes.length)
    (x : Action) (hx : Listed place (f.act x)) : Accounted place size (f.act x) := by
  cases x with
  | joined output address peer => exact h.join output address peer hx
  | delivered lane draws => exact h.delivered hapart lane draws
  | setup size =>
    exact h.acts hapart (Registry.deed_setup f.registry size) fun _ _ heq => nomatch heq
  | start count =>
    exact h.acts hapart (Registry.deed_start f.registry count) fun _ _ heq => nomatch heq
  | elapsed ms =>
    exact h.acts hapart (Registry.deed_elapsed f.registry ms) fun _ _ heq => nomatch heq
  | exited k => exact h.exit k
  | broke k => exact h.breakLink k
  | noticed w => exact h.notice hapart w

/-- A node that lets go of its registry is parted. -/
theorem Accounted.hangsUp (h : Accounted place size f) (hn : f.nodes[k]? = some n) :
    Accounted place size (f.collectNode k (n.close registryLink)) := by
  have hmember := h.proper.enrolled k n hn
  exact h.stirred hn (h.proper.stirred hn (Node.answers_close hmember.seated hmember.silent))
    fun hholds => absurd hholds Bool.false_ne_true

/-! ### Whole runs -/

/-- Nodes never go away. -/
theorem Proper.length_act_le (h : Proper f) (x : Action) :
    f.nodes.length ≤ (f.act x).nodes.length := by
  have hlength := (h.act x).2.homes_grow.length_le
  rwa [length_homes, length_homes] at hlength

variable {config : RegistryConfig} {draws : Draws}

theorem Occurs.proper (h : Occurs config draws f) : Proper f := by
  induction h with
  | opened => exact proper_opened config draws
  | act h x ih => exact (ih.act x).1
  | closes h k ih => exact (ih.turn_close k (.broke k)).1
  | hangsUp h hn ih =>
    have hmember := ih.enrolled _ _ hn
    exact ih.collectNode hn (Node.answers_close hmember.seated hmember.silent)

theorem accounted_opened (place : Nat → PeerAddress) (config : RegistryConfig) (draws : Draws) :
    Accounted place config.ringSize (opened config draws) where
  proper := proper_opened config draws
  listed _ _ h := nomatch h
  backed :=
    { sound := Registry.sound_initial config draws
      home := fun _ _ h => nomatch h
      said := fun _ _ h => nomatch h
      backed := fun _ _ _ hopen => absurd (Links.isOpen_iff.mp hopen).1 (Nat.not_lt_zero _) }

/-- Nodes that listen at addresses of their own are backed. -/
theorem Occurs.accounted (h : Occurs config draws f) (hlisted : Listed place f)
    (hapart : Apart place f.nodes.length) : Accounted place config.ringSize f := by
  induction h with
  | opened => exact accounted_opened place config draws
  | act h x ih =>
    have hbefore := hapart.mono (h.proper.length_act_le x)
    have hearlier := hlisted.of_prefix (h.proper.act x).2.homes_grow
    exact (ih hearlier hbefore).act hbefore x hlisted
  | closes h k ih => exact (ih hlisted hapart).closeAt k
  | @hangsUp f k n h hn ih =>
    have hhomes : (f.collectNode k (n.close registryLink)).homes = f.homes :=
      homes_collectNode hn rfl
    have hbefore := hapart.mono (Nat.le_of_eq List.length_set.symm)
    exact (ih (hlisted.of_homes hhomes.symm) hbefore).hangsUp hn

/-- What a node holds is on record for it, if neither end has let go and no dismissal is under
way. -/
theorem Accounted.get?_of_holds (h : Accounted place size f) (hn : f.nodes[k]? = some n)
    (hid : n.topology.id = some id) :
    f.registry.membership.get? id = some n.address ∨ f.Released k ∨ f.Parted k := by
  by_cases hparted : f.Parted k
  · exact .inr (.inr hparted)
  obtain ⟨hheld, hclosed⟩ := not_or.mp hparted
  rw [holdsRegistry_of_some hn] at hheld
  have hlt : k < f.registry.links.ends.length := by
    have hlength : f.registry.links.ends.length = f.nodes.length := h.proper.connected
    exact hlength ▸ (List.getElem?_eq_some_iff.mp hn).1
  have hholds : (f.present k).holds = true := by
    rw [present_of_some hn]
    exact Bool.not_eq_false _ ▸ hheld
  have hclaim : Claims (f.present k) (f.down k) id := by
    rw [present_of_some hn]
    exact .inl hid
  rcases h.backed.backed k id hholds (Links.isOpen_iff.mpr ⟨hlt, hclosed⟩) hclaim with he | hleft
  · rw [h.listed k n.address (homes_of_some hn)]
    exact .inl (h.backed.sound.members.get?_of_mem he)
  · exact .inr (.inl hleft)

/-- **The registry and its nodes agree on who is who.**  Nodes listen each at an address of its own,
and anything may happen to them and to their connections.  A node that holds an identifier is on
record for it, at its own address; or the word that its registration has ended is on its way to it;
or its connection to the registry has closed.  So of two nodes that hold the same identifier, one is
in one of the latter situations. -/
theorem identities_agree (h : Occurs config draws f) (hown : (f.nodes.map Node.address).Nodup) :
    (∀ k n id, f.nodes[k]? = some n → n.topology.id = some id →
      f.registry.membership.get? id = some n.address ∨ f.Released k ∨ f.Parted k) ∧
    ∀ j k m n id, j ≠ k → f.nodes[j]? = some m → f.nodes[k]? = some n →
      m.topology.id = some id → n.topology.id = some id →
      (f.Released j ∨ f.Parted j) ∨ f.Released k ∨ f.Parted k := by
  obtain ⟨place, hlisted⟩ := exists_listed f
  have hapart := hlisted.apart hown
  have haccounted := h.accounted hlisted hapart
  refine ⟨fun k n id hn hid => haccounted.get?_of_holds hn hid,
    fun j k m n id hne hm hn hmid hnid => ?_⟩
  rcases haccounted.get?_of_holds hm hmid with hj | hj
  · rcases haccounted.get?_of_holds hn hnid with hk | hk
    · have hsame : m.address = n.address := Option.some.inj (hj.symm.trans hk)
      rw [hlisted j m.address (homes_of_some hm), hlisted k n.address (homes_of_some hn)] at hsame
      exact absurd (hapart j k (List.getElem?_eq_some_iff.mp hm).1
        (List.getElem?_eq_some_iff.mp hn).1 hsame) hne
    · exact .inr hk
  · exact .inl hj

/-- What runs reach, occurs. -/
theorem Occurs.run (h : Occurs config draws f) (xs : List Action) :
    Occurs config draws (f.run xs) := by
  induction xs generalizing f with
  | nil => exact h
  | cons x xs ih => exact ih (h.act x)

/-- A node is registered and asks to leave, twice.  The registry hears it once, and gives the
identifier to a node that joins before the first has heard that it may go. -/
def reusedFleet : Fleet :=
  (opened {} (.ofList [21, 21])).run
    (joining [0] ++ [.exited 0, .exited 0] ++ heardFrom [0] ++ joining [1])

/-- Both nodes hold the identifier, and both their connections are open; one has been released. -/
theorem identities_agree_reused :
    reusedFleet.nodes[0]?.bind (·.topology.id) = some (21 : NodeId) ∧
    reusedFleet.nodes[1]?.bind (·.topology.id) = some (21 : NodeId) ∧
    ¬ reusedFleet.Parted 0 ∧ ¬ reusedFleet.Parted 1 ∧
    (reusedFleet.Released 0 ∨ reusedFleet.Released 1) := by
  have hoccurs : Occurs {} (.ofList [21, 21]) reusedFleet := Occurs.opened.run _
  have hown : (reusedFleet.nodes.map Node.address).Nodup := by decide +kernel
  have h₀ : reusedFleet.nodes[0]?.bind (·.topology.id) = some (21 : NodeId) := by decide +kernel
  have h₁ : reusedFleet.nodes[1]?.bind (·.topology.id) = some (21 : NodeId) := by decide +kernel
  have hopen₀ : ¬ reusedFleet.Parted 0 := by
    unfold Parted
    decide +kernel
  have hopen₁ : ¬ reusedFleet.Parted 1 := by
    unfold Parted
    decide +kernel
  obtain ⟨m, hm, hmid⟩ := Option.bind_eq_some_iff.mp h₀
  obtain ⟨n, hn, hnid⟩ := Option.bind_eq_some_iff.mp h₁
  refine ⟨h₀, h₁, hopen₀, hopen₁, ?_⟩
  have hone := (identities_agree hoccurs hown).2 0 1 m n 21 (by decide) hm hn hmid hnid
  exact hone.imp (fun h => h.resolve_right hopen₀) fun h => h.resolve_right hopen₁

end Fleet

end RingOverlay
