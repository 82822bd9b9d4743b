import Mathlib.Data.List.Nodup
import Mathlib.Data.List.Perm.Subperm
import RingOverlay.Proofs.Ring.Draws
import RingOverlay.Registry.Membership

/-!
# Registry — who is a member

A membership is *in order* if its members ascend by identifier, every identifier is one that the
ring hands out, and no two members share an address.  Whoever is to be admitted (`Admits`) is: where
there is room, the draws find a free identifier sooner or later (`register_of_admits`).  It is put
in the right place (`register_eq_ok`), and who leaves is taken out and nobody else
(`deregister_eq_ok`, `removeAddress_of_mem`); both keep the membership in order.  Who may not leave
is kept for one of three reasons (`Retains`, `deregister_eq_error_iff`).
-/

namespace RingOverlay

namespace Membership

/-- Members ascend by identifier, have identifiers of the ring, and do not share addresses. -/
structure InOrder (m : Membership) : Prop where
  ascending : m.members.Pairwise fun x y => x.id < y.id
  below : ∀ e ∈ m.members, e.id.val < m.capacity
  addresses : (m.members.map Entry.address).Nodup

variable {m m' : Membership} {e e' : Entry} {id : NodeId} {a b : PeerAddress} {observed : Ip}
  {draws draws' : Draws} {refusal : Refusal}

theorem inOrder_empty (capacity : Nat) : (empty capacity).InOrder :=
  ⟨.nil, fun _ he => absurd he List.not_mem_nil, .nil⟩

theorem InOrder.nodup_ids (h : m.InOrder) : (m.members.map Entry.id).Nodup :=
  List.pairwise_map.mpr (h.ascending.imp fun hlt => Fin.ne_of_lt hlt)

/-- A member is known by its identifier. -/
theorem InOrder.eq_of_id (h : m.InOrder) (he : e ∈ m.members) (he' : e' ∈ m.members)
    (hid : e.id = e'.id) : e = e' :=
  List.inj_on_of_nodup_map h.nodup_ids he he' hid

/-- And by its address. -/
theorem InOrder.eq_of_address (h : m.InOrder) (he : e ∈ m.members) (he' : e' ∈ m.members)
    (haddress : e.address = e'.address) : e = e' :=
  List.inj_on_of_nodup_map h.addresses he he' haddress

theorem get?_eq_some (h : m.get? id = some a) : ⟨id, a⟩ ∈ m.members := by
  obtain ⟨e, hfind, rfl⟩ := Option.map_eq_some_iff.mp h
  have hid : (e.id == id) = true := List.find?_some (p := fun x : Entry => x.id == id) hfind
  obtain rfl := beq_iff_eq.mp hid
  exact List.mem_of_find?_eq_some hfind

theorem InOrder.get?_of_mem (h : m.InOrder) (he : e ∈ m.members) :
    m.get? e.id = some e.address := by
  cases hget : m.get? e.id with
  | none =>
    have hnone := List.find?_eq_none.mp (Option.map_eq_none_iff.mp hget) e he
    exact absurd (beq_self_eq_true e.id) hnone
  | some b => exact congrArg (some ∘ Entry.address) (h.eq_of_id (get?_eq_some hget) he rfl)

theorem isFree_iff : m.isFree id = true ↔ ∀ e ∈ m.members, e.id ≠ id := by
  unfold isFree find?
  simp [List.find?_eq_none]

theorem hasAddress_iff : m.hasAddress a = true ↔ a ∈ m.members.map Entry.address := by
  unfold hasAddress
  simp [List.any_eq_true]

/-! ### Joining -/

theorem insert_perm (e : Entry) (es : List Entry) : (insert e es).Perm (e :: es) := by
  induction es with
  | nil => exact .refl _
  | cons x es ih =>
    unfold insert
    split
    · exact .refl _
    · exact (ih.cons x).trans (.swap e x es)

theorem mem_insert {es : List Entry} : e' ∈ insert e es ↔ e' = e ∨ e' ∈ es :=
  (insert_perm e es).mem_iff.trans List.mem_cons

theorem pairwise_insert {es : List Entry} (h : es.Pairwise fun x y => x.id < y.id)
    (hfree : ∀ x ∈ es, x.id ≠ e.id) : (insert e es).Pairwise fun x y => x.id < y.id := by
  induction es with
  | nil => exact List.pairwise_singleton _ _
  | cons x es ih =>
    obtain ⟨hx, hes⟩ := List.pairwise_cons.mp h
    unfold insert
    split
    · next hlt =>
      refine List.pairwise_cons.mpr ⟨fun y hy => ?_, h⟩
      rcases List.mem_cons.mp hy with rfl | hy
      · exact hlt
      · exact Fin.lt_trans hlt (hx y hy)
    · next hnlt =>
      have hne : x.id.val ≠ e.id.val := Fin.val_ne_of_ne (hfree x (List.mem_cons_self ..))
      have hxe : x.id < e.id := Nat.lt_of_le_of_ne (Fin.not_lt.mp hnlt) hne
      refine List.pairwise_cons.mpr ⟨fun y hy => ?_, ih hes fun y hy => hfree y (.tail _ hy)⟩
      rcases mem_insert.mp hy with rfl | hy
      · exact hxe
      · exact hx y hy

/-- Whom the membership admits: there is room, nobody is registered at the very address, and its
host is where the request came from. -/
structure Admits (m : Membership) (a : PeerAddress) (observed : Ip) : Prop where
  room : m.size < m.capacity
  new : m.hasAddress a = false
  host : a.matchesHost observed = true

theorem register_eq_ok (h : m.register a observed draws = .ok (id, m', draws')) :
    m.Admits a observed ∧ m.isFree id = true ∧ id.val < m.capacity ∧
      m' = { m with members := insert ⟨id, a⟩ m.members } := by
  unfold register at h
  split at h
  · cases h
  · next hroom =>
    split at h
    · cases h
    · next hnew =>
      split at h
      · cases h
      · next hhost =>
        split at h
        · cases h
        · next id₁ d₁ hpick =>
          cases h
          have hn : 0 < m.capacity := by omega
          obtain ⟨_, -, hfirst, -⟩ := (Draws.pickWithin_eq_some_iff hn).mp hpick
          have hadmits : m.Admits a observed :=
            ⟨Nat.not_le.mp hroom, Bool.not_eq_true _ ▸ hnew, by simpa using hhost⟩
          exact ⟨hadmits, hfirst.isFree, hfirst.val_lt hn, rfl⟩

/-- Where there is room, some identifier is free. -/
theorem exists_isFree (hroom : m.size < m.capacity) (hcapacity : m.capacity ≤ ringSize) :
    ∃ id, m.isFree id = true ∧ id.val < m.capacity := by
  by_contra hnone
  have htaken : List.range m.capacity ⊆ m.members.map (·.id.val) := fun k hk => by
    have hlt := List.mem_range.mp hk
    by_contra hmem
    exact hnone ⟨⟨k, by omega⟩, isFree_iff.mpr fun e he hid =>
      hmem (List.mem_map.mpr ⟨e, he, congrArg Fin.val hid⟩), hlt⟩
  have hlength := (List.Nodup.subperm List.nodup_range htaken).length_le
  rw [List.length_range, List.length_map] at hlength
  exact absurd hroom (Nat.not_lt.mpr hlength)

/-- A node that is admitted gets the identifier that the search picks. -/
theorem register_of_pick (h : m.Admits a observed)
    (hpick : draws.pick m.capacity m.isFree = some (id, draws')) :
    m.register a observed draws =
      .ok (id, { m with members := insert ⟨id, a⟩ m.members }, draws') := by
  unfold register
  rw [if_neg (Nat.not_le.mpr h.room), h.new, h.host, hpick]
  rfl

/-- Where there is room, a free identifier is drawn within the script and one round of the ring. -/
theorem exists_firstFree (hroom : m.size < m.capacity) (hcapacity : m.capacity ≤ ringSize)
    (draws : Draws) :
    ∃ k < draws.scripted.length + m.capacity, ∃ id, draws.FirstFree m.capacity m.isFree k id := by
  obtain ⟨id, hfree, hlt⟩ := exists_isFree hroom hcapacity
  obtain ⟨j, hj, hdrawn⟩ := draws.exists_nth_eq hlt
  obtain ⟨k, hk, first, hfirst⟩ := Draws.exists_firstFree hdrawn hfree
  exact ⟨k, Nat.lt_of_le_of_lt hk hj, first, hfirst⟩

/-- The draws do not decide whether a node is admitted. -/
theorem register_of_admits (h : m.Admits a observed) (hcapacity : m.capacity ≤ ringSize)
    (draws : Draws) : ∃ id m' draws', m.register a observed draws = .ok (id, m', draws') := by
  obtain ⟨k, hk, id, hfirst⟩ := exists_firstFree h.room hcapacity draws
  have hpos := Nat.zero_lt_of_lt h.room
  have hpick := (Draws.pickWithin_eq_some_iff hpos).mpr ⟨k, hk, hfirst, rfl⟩
  exact ⟨id, _, _, register_of_pick h hpick⟩

theorem InOrder.insert (h : m.InOrder) (hfree : m.isFree id = true) (hlt : id.val < m.capacity)
    (hnew : m.hasAddress a = false) :
    InOrder { m with members := Membership.insert ⟨id, a⟩ m.members } where
  ascending := pairwise_insert h.ascending (isFree_iff.mp hfree)
  below e he := by
    rcases mem_insert.mp he with rfl | he
    · exact hlt
    · exact h.below e he
  addresses := by
    have hperm := (insert_perm ⟨id, a⟩ m.members).map Entry.address
    refine hperm.nodup_iff.mpr (List.nodup_cons.mpr ⟨fun hmem => ?_, h.addresses⟩)
    rw [hasAddress_iff.mpr hmem] at hnew
    cases hnew

/-! ### Leaving -/

theorem mem_erase {es : List Entry} : e ∈ erase id es ↔ e ∈ es ∧ e.id ≠ id := by
  unfold erase
  rw [List.mem_filter, bne_iff_ne]

theorem InOrder.erase (h : m.InOrder) (id : NodeId) :
    InOrder { m with members := Membership.erase id m.members } where
  ascending := h.ascending.filter _
  below e he := h.below e (mem_erase.mp he).1
  addresses := h.addresses.sublist (List.filter_sublist.map _)

/-- To take a member out is to take its address out. -/
theorem InOrder.erase_eq (h : m.InOrder) (he : ⟨id, a⟩ ∈ m.members) :
    Membership.erase id m.members = m.members.filter (·.address != a) := by
  unfold Membership.erase
  refine List.filter_congr fun x hx => ?_
  have hiff : x.id = id ↔ x.address = a :=
    ⟨fun hid => congrArg Entry.address (h.eq_of_id hx he hid),
      fun haddress => congrArg Entry.id (h.eq_of_address hx he haddress)⟩
  rw [Bool.eq_iff_iff, bne_iff_ne, bne_iff_ne]
  exact not_congr hiff

/-- Without one member, its address is gone, and only that. -/
theorem InOrder.addresses_erase (h : m.InOrder) (he : ⟨id, a⟩ ∈ m.members) :
    (Membership.erase id m.members).map Entry.address =
      (m.members.map Entry.address).filter (· != a) := by
  rw [h.erase_eq he, List.filter_map]
  rfl

/-- To put a member back in is to undo taking it out. -/
theorem InOrder.perm_erase (h : m.InOrder) (he : ⟨id, a⟩ ∈ m.members) :
    m.members.Perm (⟨id, a⟩ :: Membership.erase id m.members) := by
  have hnodup : m.members.Nodup := h.ascending.imp fun hlt heq =>
    Fin.ne_of_lt hlt (congrArg Entry.id heq)
  have hleft : (⟨id, a⟩ : Entry) ∉ Membership.erase id m.members :=
    fun hmem => (mem_erase.mp hmem).2 rfl
  refine (List.perm_ext_iff_of_nodup hnodup
    (List.nodup_cons.mpr ⟨hleft, hnodup.filter _⟩)).mpr fun e => ?_
  rw [List.mem_cons, mem_erase]
  refine ⟨fun hmem => ?_, fun hmem => hmem.elim (· ▸ he) And.left⟩
  by_cases hid : e.id = id
  · exact .inl (h.eq_of_id hmem he hid)
  · exact .inr ⟨hmem, hid⟩

/-- Why the node `id`, which asks to leave as the one at `a`, is kept.  The reasons exclude each
other, and are looked at in this order. -/
inductive Retains (m : Membership) (a : PeerAddress) (id : NodeId) (observed : Ip) :
    Refusal → Prop where
  | notRegistered (hnone : m.get? id = none) : Retains m a id observed (.notRegistered id)
  | addressMismatch {b : PeerAddress} (hother : m.get? id = some b) (hne : b ≠ a) :
      Retains m a id observed (.addressMismatch id b a)
  | hostMismatch (hsame : m.get? id = some a) (hhost : a.matchesHost observed = false) :
      Retains m a id observed (.hostMismatch a observed)

/-- A node may leave if it asks with its own address and from there. -/
theorem deregister_of_own (hsame : m.get? id = some a) (hhost : a.matchesHost observed = true) :
    m.deregister a id observed = .ok (a, { m with members := erase id m.members }) := by
  simp only [deregister, hsame, hhost]
  rw [if_neg (not_not_intro rfl)]
  rfl

/-- Else it may not, for one of three reasons. -/
theorem Retains.deregister_eq (h : m.Retains a id observed refusal) :
    m.deregister a id observed = .error refusal := by
  cases h with
  | notRegistered hnone => simp only [deregister, hnone]
  | addressMismatch hother hne => simp only [deregister, hother, if_pos hne]
  | hostMismatch hsame hhost =>
    simp only [deregister, hsame, hhost]
    rw [if_neg (not_not_intro rfl)]
    rfl

/-- A request to leave is granted, or there is a reason why not. -/
theorem own_or_retains (m : Membership) (a : PeerAddress) (id : NodeId) (observed : Ip) :
    (m.get? id = some a ∧ a.matchesHost observed = true) ∨
      ∃ refusal, m.Retains a id observed refusal := by
  cases hget : m.get? id with
  | none => exact .inr ⟨_, .notRegistered hget⟩
  | some b =>
    by_cases hne : b ≠ a
    · exact .inr ⟨_, .addressMismatch hget hne⟩
    · obtain rfl := Decidable.not_not.mp hne
      cases hhost : b.matchesHost observed with
      | true => exact .inl ⟨rfl, rfl⟩
      | false => exact .inr ⟨_, .hostMismatch hget hhost⟩

theorem deregister_eq_error_iff :
    m.deregister a id observed = .error refusal ↔ m.Retains a id observed refusal := by
  refine ⟨fun h => ?_, Retains.deregister_eq⟩
  rcases own_or_retains m a id observed with ⟨hsame, hhost⟩ | ⟨refusal', hretains⟩
  · cases (deregister_of_own hsame hhost).symm.trans h
  · cases hretains.deregister_eq.symm.trans h
    exact hretains

theorem deregister_eq_ok_iff : m.deregister a id observed = .ok (b, m') ↔
    (m.get? id = some a ∧ a.matchesHost observed = true) ∧
      b = a ∧ m' = { m with members := erase id m.members } := by
  constructor
  · intro h
    rcases own_or_retains m a id observed with hown | ⟨refusal, hretains⟩
    · cases (deregister_of_own hown.1 hown.2).symm.trans h
      exact ⟨hown, rfl, rfl⟩
    · cases hretains.deregister_eq.symm.trans h
  · rintro ⟨⟨hsame, hhost⟩, rfl, rfl⟩
    exact deregister_of_own hsame hhost

theorem deregister_eq_ok (h : m.deregister a id observed = .ok (b, m')) :
    ⟨id, a⟩ ∈ m.members ∧ m' = { m with members := erase id m.members } := by
  obtain ⟨⟨hsame, -⟩, -, rfl⟩ := deregister_eq_ok_iff.mp h
  exact ⟨get?_eq_some hsame, rfl⟩

theorem InOrder.removeAddress_of_mem (h : m.InOrder) (he : ⟨id, a⟩ ∈ m.members) :
    m.removeAddress a = (some id, { m with members := Membership.erase id m.members }) := by
  unfold removeAddress
  split
  · next hnone => exact absurd (beq_self_eq_true a) (List.find?_eq_none.mp hnone _ he)
  · next e hfind =>
    have haddress : (e.address == a) = true :=
      List.find?_some (p := fun x : Entry => x.address == a) hfind
    obtain rfl := h.eq_of_address (List.mem_of_find?_eq_some hfind) he (beq_iff_eq.mp haddress)
    rfl

end Membership

end RingOverlay
