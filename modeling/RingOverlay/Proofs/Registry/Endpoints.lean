import RingOverlay.Proofs.Address.Spelling
import RingOverlay.Proofs.Registry.Members

/-!
# Registry — one endpoint, one membership

An address leads to an *endpoint*: its port, at the IP that its host denotes, with an IPv4-mapped
IP folded back.  That is what a registration is checked against (`matchesHost_iff`).  But members
are told apart by the text of their addresses, and an IP may have several texts.  A request
*respells* an endpoint if it is admitted, under a text that is nobody's, for an endpoint that a
member is at already.  Members stay at separate endpoints exactly as long as no request does that
(`separate_run_iff`).

An IPv4 address has one text in dotted decimals.  So of two members at one endpoint, one at least
writes its host as an IPv6 address.
-/

namespace RingOverlay

namespace PeerAddress

/-- Where an address leads.  A host that is no IP literal leads nowhere. -/
def endpoint? (a : PeerAddress) : Option (Ip × UInt16) :=
  (Ip.parse? a.host).map fun ip => (ip.canonical, a.port)

/-- The address writes its host as an IPv6 address. -/
def InV6 (a : PeerAddress) : Prop := ∃ ip, Ip.parse? a.host = some (.v6 ip)

variable {a b : PeerAddress} {ip : Ip}

/-- An address matches the host that it leads to. -/
theorem matchesHost_iff : a.matchesHost ip = true ↔ a.endpoint? = some (ip.canonical, a.port) := by
  unfold matchesHost endpoint?
  cases Ip.parse? a.host with
  | none => exact iff_of_false Bool.false_ne_true (Option.some_ne_none _).symm
  | some claimed =>
    rw [Option.map_some, Option.some_inj, Prod.mk.injEq, beq_iff_eq]
    exact (and_iff_left rfl).symm

/-- Addresses that lead to one endpoint differ in their hosts only. -/
theorem eq_of_endpoint? (ha : a.endpoint?.isSome = true) (h : a.endpoint? = b.endpoint?)
    (hhost : a.host = b.host) : a = b := by
  obtain ⟨ip, hip⟩ := Option.isSome_iff_exists.mp (Option.isSome_map.symm.trans ha)
  unfold endpoint? at h
  rw [← hhost, hip] at h
  have hport : a.port = b.port := congrArg Prod.snd (Option.some.inj h)
  obtain ⟨host, port⟩ := a
  exact congr (congrArg PeerAddress.mk hhost) hport

/-- Different addresses that lead to one endpoint are not both in dotted decimals. -/
theorem inV6_of_endpoint? (ha : a.endpoint?.isSome = true) (h : a.endpoint? = b.endpoint?)
    (hne : a ≠ b) : a.InV6 ∨ b.InV6 := by
  obtain ⟨x, hx⟩ := Option.isSome_iff_exists.mp (Option.isSome_map.symm.trans ha)
  obtain ⟨y, hy⟩ := Option.isSome_iff_exists.mp (Option.isSome_map.symm.trans (h ▸ ha))
  match x, y with
  | .v6 x, _ => exact .inl ⟨x, hx⟩
  | _, .v6 y => exact .inr ⟨y, hy⟩
  | .v4 x, .v4 y =>
    refine absurd (eq_of_endpoint? ha h ?_) hne
    unfold endpoint? at h
    rw [hx, hy] at h
    obtain rfl : x = y := Ip.v4.inj (congrArg Prod.fst (Option.some.inj h))
    exact String.toList_inj.mp ((Ip.chars_of_parse?_v4 hx).symm.trans (Ip.chars_of_parse?_v4 hy))

end PeerAddress

namespace Membership

/-- A request to change a membership. -/
inductive Call where
  | register (claimed : PeerAddress) (observed : Ip) (draws : Draws)
  | deregister (claimed : PeerAddress) (id : NodeId) (observed : Ip)
  | removeAddress (address : PeerAddress)
  deriving Repr

/-- What a request makes of a membership; one that is refused leaves it as it was. -/
def call (m : Membership) : Call → Membership
  | .register claimed observed draws =>
    match m.register claimed observed draws with
    | .ok (_, m', _) => m'
    | .error _ => m
  | .deregister claimed id observed =>
    match m.deregister claimed id observed with
    | .ok (_, m') => m'
    | .error _ => m
  | .removeAddress address => (m.removeAddress address).2

/-- What requests make of it, one after the other. -/
def run (m : Membership) (calls : List Call) : Membership := calls.foldl call m

/-- No two members are at the same endpoint. -/
def Separate (m : Membership) : Prop := (m.members.map (·.address.endpoint?)).Nodup

instance (m : Membership) : Decidable m.Separate := inferInstanceAs (Decidable (List.Nodup _))

namespace Call

/-- The request is admitted for an endpoint that a member is at already. -/
def Respells (m : Membership) (c : Call) : Prop :=
  ∃ claimed observed draws, c = .register claimed observed draws ∧ m.Admits claimed observed ∧
    ∃ e ∈ m.members, e.address.endpoint? = claimed.endpoint?

/-- A request to join writes its host as `spelling` writes the IP it was observed to come from. -/
def SpelledBy (spelling : Ip → String) : Call → Prop
  | register claimed observed _ => claimed.host = spelling observed.canonical
  | _ => True

instance (spelling : Ip → String) : (c : Call) → Decidable (c.SpelledBy spelling)
  | register .. => inferInstanceAs (Decidable (_ = _))
  | deregister .. => isTrue trivial
  | removeAddress .. => isTrue trivial

end Call

variable {m : Membership} {c : Call} {a : PeerAddress} {observed : Ip}

/-! ### One request -/

/-- What a request can do: add a node that is admitted; or, if it is no such request, take out a
node or do nothing. -/
theorem call_cases (hcapacity : m.capacity ≤ ringSize) (c : Call) :
    (∃ a observed draws id, c = .register a observed draws ∧ m.Admits a observed ∧
      m.isFree id = true ∧ id.val < m.capacity ∧
      m.call c = { m with members := insert ⟨id, a⟩ m.members }) ∨
    ((∀ a observed draws, c = .register a observed draws → ¬ m.Admits a observed) ∧
      (m.call c = m ∨ ∃ id, m.call c = { m with members := erase id m.members })) := by
  cases c with
  | register a observed draws =>
    by_cases hadmits : m.Admits a observed
    · obtain ⟨id, m', draws', h⟩ := register_of_admits hadmits hcapacity draws
      obtain ⟨-, hfree, hlt, rfl⟩ := register_eq_ok h
      refine .inl ⟨a, observed, draws, id, rfl, hadmits, hfree, hlt, ?_⟩
      simp only [call, h]
    · refine .inr ⟨fun _ _ _ heq => by cases heq; exact hadmits, .inl ?_⟩
      simp only [call]
      split
      · next h => exact absurd (register_eq_ok h).1 hadmits
      · rfl
  | deregister a id observed =>
    refine .inr ⟨fun _ _ _ heq => (by cases heq), ?_⟩
    simp only [call]
    split
    · next h => exact .inr ⟨id, (deregister_eq_ok h).2⟩
    · exact .inl rfl
  | removeAddress a =>
    refine .inr ⟨fun _ _ _ heq => (by cases heq), ?_⟩
    simp only [call, removeAddress]
    split
    · exact .inl rfl
    · next e _ => exact .inr ⟨e.id, rfl⟩

/-- What holds of the members, and of whoever is admitted, holds of the members after a request. -/
theorem forall_call {P : Entry → Prop} (hcapacity : m.capacity ≤ ringSize)
    (hmembers : ∀ e ∈ m.members, P e)
    (hadmitted : ∀ a observed draws id, c = .register a observed draws → m.Admits a observed →
      P ⟨id, a⟩) :
    ∀ e ∈ (m.call c).members, P e := by
  rcases call_cases hcapacity c with
    ⟨a, observed, draws, id, hc, hadmits, -, -, heq⟩ | ⟨-, heq | ⟨id, heq⟩⟩ <;> rw [heq]
  · intro e he
    rcases mem_insert.mp he with rfl | he
    · exact hadmitted a observed draws id hc hadmits
    · exact hmembers e he
  · exact hmembers
  · exact fun e he => hmembers e (mem_erase.mp he).1

/-- A membership in order, on the ring, whose members can all be found. -/
structure Placed (m : Membership) : Prop extends m.InOrder where
  capacity_le : m.capacity ≤ ringSize
  located : ∀ e ∈ m.members, e.address.endpoint?.isSome = true

theorem placed_empty {capacity : Nat} (h : capacity ≤ ringSize) : (empty capacity).Placed :=
  ⟨inOrder_empty capacity, h, fun _ he => absurd he List.not_mem_nil⟩

theorem Placed.call (h : m.Placed) (c : Call) : (m.call c).Placed := by
  have hlocated : ∀ e ∈ (m.call c).members, e.address.endpoint?.isSome = true :=
    forall_call h.capacity_le h.located fun a observed _ _ _ hadmits =>
      Option.isSome_of_mem (PeerAddress.matchesHost_iff.mp hadmits.host)
  rcases call_cases h.capacity_le c with
    ⟨a, observed, draws, id, -, hadmits, hfree, hlt, heq⟩ | ⟨-, heq | ⟨id, heq⟩⟩ <;>
    rw [heq] at hlocated ⊢
  · exact ⟨h.toInOrder.insert hfree hlt hadmits.new, h.capacity_le, hlocated⟩
  · exact h
  · exact ⟨h.toInOrder.erase id, h.capacity_le, hlocated⟩

/-- Members that are at separate endpoints still are after a request, unless it respells one. -/
theorem Placed.separate_call_iff (h : m.Placed) (hseparate : m.Separate) (c : Call) :
    (m.call c).Separate ↔ ¬ c.Respells m := by
  rcases call_cases h.capacity_le c with
    ⟨a, observed, draws, id, rfl, hadmits, -, -, heq⟩ | ⟨hnot, heq⟩
  · rw [heq]
    have hperm := (insert_perm ⟨id, a⟩ m.members).map (·.address.endpoint?)
    refine hperm.nodup_iff.trans (List.nodup_cons.trans ((and_iff_left hseparate).trans ?_))
    refine not_congr ⟨fun hmem => ?_, ?_⟩
    · exact ⟨a, observed, draws, rfl, hadmits, List.mem_map.mp hmem⟩
    · rintro ⟨_, _, _, hc, -, hmem⟩
      cases hc
      exact List.mem_map.mpr hmem
  · refine iff_of_true ?_ fun ⟨a, observed, draws, hc, hadmits, _⟩ =>
      hnot a observed draws hc hadmits
    rcases heq with heq | ⟨id, heq⟩ <;> rw [heq]
    · exact hseparate
    · exact hseparate.sublist (List.filter_sublist.map _)

/-! ### Many requests -/

theorem Placed.run (h : m.Placed) (calls : List Call) : (m.run calls).Placed := by
  induction calls generalizing m with
  | nil => exact h
  | cons c calls ih => exact ih (h.call c)

/-- Members stay at separate endpoints exactly as long as no request respells one. -/
theorem Placed.separate_run_iff (h : m.Placed) (hseparate : m.Separate) (calls : List Call) :
    (∀ n, (m.run (calls.take n)).Separate) ↔
      ∀ n (c : Call), calls[n]? = some c → ¬ c.Respells (m.run (calls.take n)) := by
  induction calls generalizing m with
  | nil =>
    refine iff_of_true (fun n => ?_) fun n c hc => by cases hc
    rw [List.take_nil]
    exact hseparate
  | cons c calls ih =>
    have hstep := h.separate_call_iff hseparate c
    constructor
    · intro hall
      have hafter : (m.call c).Separate := hall 1
      intro n x hx
      cases n with
      | zero =>
        cases hx
        exact hstep.mp hafter
      | succ n => exact (ih (h.call c) hafter).mp (fun n => hall (n + 1)) n x hx
    · intro hnone n
      have hafter := hstep.mpr (hnone 0 c rfl)
      cases n with
      | zero => exact hseparate
      | succ n => exact (ih (h.call c) hafter).mpr (fun n => hnone (n + 1)) n

/-- Members that write the host alike wherever they lead to one endpoint are at separate ones. -/
theorem Placed.separate_of_hosts (h : m.Placed)
    (hhosts : ∀ e ∈ m.members, ∀ e' ∈ m.members,
      e.address.endpoint? = e'.address.endpoint? → e.address.host = e'.address.host) :
    m.Separate := by
  have hnodup : m.members.Nodup := List.Nodup.of_map _ h.addresses
  refine (List.nodup_map_iff_inj_on hnodup).mpr fun e he e' he' heq => ?_
  have haddress := PeerAddress.eq_of_endpoint? (h.located e he) heq (hhosts e he e' he' heq)
  exact h.eq_of_address he he' haddress

/-- Every member writes its host as `spelling` writes the IP that it leads to. -/
def Spelled (spelling : Ip → String) (m : Membership) : Prop :=
  ∀ e ∈ m.members, ∀ ip port, e.address.endpoint? = some (ip, port) → e.address.host = spelling ip

theorem Placed.spelled_call {spelling : Ip → String} (h : m.Placed) (hm : m.Spelled spelling)
    (hc : c.SpelledBy spelling) : (m.call c).Spelled spelling := by
  refine forall_call h.capacity_le hm fun a observed draws id heq hadmits ip port hlead => ?_
  have hhost := PeerAddress.matchesHost_iff.mp hadmits.host
  obtain ⟨rfl, -⟩ := Prod.mk.inj (Option.some.inj (hhost.symm.trans hlead))
  rw [heq] at hc
  exact hc

theorem Placed.spelled_run {spelling : Ip → String} {calls : List Call} (h : m.Placed)
    (hm : m.Spelled spelling) (hcalls : ∀ c ∈ calls, c.SpelledBy spelling) :
    (m.run calls).Spelled spelling := by
  induction calls generalizing m with
  | nil => exact hm
  | cons c calls ih =>
    obtain ⟨hc, hcalls⟩ := List.forall_mem_cons.mp hcalls
    exact ih (h.call c) (h.spelled_call hm hc) hcalls

theorem Placed.separate_of_spelled {spelling : Ip → String} (h : m.Placed)
    (hm : m.Spelled spelling) : m.Separate := by
  refine h.separate_of_hosts fun e he e' he' heq => ?_
  obtain ⟨⟨ip, port⟩, hlead⟩ := Option.isSome_iff_exists.mp (h.located e he)
  exact (hm e he ip port hlead).trans (hm e' he' ip port (heq ▸ hlead)).symm

/-! ### From an empty membership -/

/-- **One endpoint, one membership, unless somebody respells it.**  On a ring of any size, whatever
requests are made, members stay at separate endpoints exactly as long as no request respells one.
Two members at one endpoint differ in how they write its host, one of them as an IPv6 address; and
there are no two if whoever joins writes the host as one spelling would have it. -/
theorem endpoints_separate {capacity : Nat} (hcapacity : capacity ≤ ringSize)
    (calls : List Call) :
    ((∀ n, ((empty capacity).run (calls.take n)).Separate) ↔
      ∀ n (c : Call), calls[n]? = some c → ¬ c.Respells ((empty capacity).run (calls.take n))) ∧
    (∀ e ∈ ((empty capacity).run calls).members, ∀ e' ∈ ((empty capacity).run calls).members,
      e ≠ e' → e.address.endpoint? = e'.address.endpoint? →
        e.address.host ≠ e'.address.host ∧ (e.address.InV6 ∨ e'.address.InV6)) ∧
    ∀ spelling, (∀ c ∈ calls, c.SpelledBy spelling) → ((empty capacity).run calls).Separate := by
  have hempty := placed_empty hcapacity
  have hplaced := hempty.run calls
  refine ⟨hempty.separate_run_iff List.nodup_nil calls, fun e he e' he' hne heq => ?_,
    fun spelling hcalls => ?_⟩
  · have hlocated := hplaced.located e he
    have haddress : e.address ≠ e'.address := fun h => hne (hplaced.eq_of_address he he' h)
    refine ⟨fun hhost => ?_, PeerAddress.inV6_of_endpoint? hlocated heq haddress⟩
    exact haddress (PeerAddress.eq_of_endpoint? hlocated heq hhost)
  · have hspelled : (empty capacity).Spelled spelling := fun _ he => absurd he List.not_mem_nil
    exact hplaced.separate_of_spelled (hempty.spelled_run hspelled hcalls)

/-- A node on each family's loopback address, and a third that takes the first one's place. -/
def dualStack : List Call :=
  [.register ⟨"127.0.0.1", 7001⟩ .loopback (.ofList [5]),
    .register ⟨"::1", 7001⟩ (.v6 ⟨[0, 0, 0, 0, 0, 0, 0, 1], rfl⟩) (.ofList [9]),
    .removeAddress ⟨"127.0.0.1", 7001⟩,
    .register ⟨"127.0.0.1", 7001⟩ .loopback (.ofList [9, 12])]

/-- They write their hosts as IPs are written, and are at separate endpoints. -/
theorem endpoints_separate_dualStack :
    ((empty 128).run dualStack).ids = [9, 12] ∧ ((empty 128).run dualStack).Separate :=
  ⟨by decide, (endpoints_separate (by decide) dualStack).2.2 Ip.text (by decide)⟩

/-- A node that registers once more, under the IPv4-mapped form of its address. -/
def respelling : List Call :=
  [.register ⟨"127.0.0.1", 7001⟩ .loopback (.ofList [5]),
    .register ⟨"::ffff:127.0.0.1", 7001⟩ .loopback (.ofList [9])]

/-- It is admitted, and is a member twice. -/
theorem endpoints_separate_respelling : ¬ ((empty 128).run respelling).Separate := by
  decide

end Membership

end RingOverlay
