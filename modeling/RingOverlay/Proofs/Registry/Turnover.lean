import RingOverlay.Proofs.Registry.Endpoints
import RingOverlay.Proofs.Registry.Refusals

/-!
# Registry — who comes and who goes

Whatever requests have been made of a membership, it is in order.  So a node that is admitted finds
an identifier before the draws have met every one on the ring, and passes over those of members only
(`exists_member_of_earlier`).  It is the one member under that identifier and under that address:
both lead to it when it leaves, and without it the membership is what it was (`erase_insert`).

* `registration_draws`: **who joins gets the first identifier drawn that is free**, and nobody else
  is affected.
* `leaving_undoes_joining`: **who leaves takes out what joining put in**, and who is kept is told
  why.
-/

namespace RingOverlay.Membership

variable {m m' : Membership} {e : Entry} {id : NodeId} {a b : PeerAddress} {observed : Ip}
  {draws draws' : Draws} {refusal : Refusal} {k : Nat}

/-! ### Whatever requests have been made -/

theorem capacity_call (m : Membership) (c : Call) : (m.call c).capacity = m.capacity := by
  cases c with
  | register a observed draws =>
    simp only [call]
    split
    · next h =>
      obtain ⟨-, -, -, rfl⟩ := register_eq_ok h
      rfl
    · rfl
  | deregister a id observed =>
    simp only [call]
    split
    · next h =>
      obtain ⟨-, rfl⟩ := deregister_eq_ok h
      rfl
    · rfl
  | removeAddress a =>
    simp only [call, removeAddress]
    split <;> rfl

theorem capacity_run (m : Membership) (calls : List Call) :
    (m.run calls).capacity = m.capacity := by
  induction calls generalizing m with
  | nil => rfl
  | cons c calls ih => exact (ih (m.call c)).trans (capacity_call m c)

/-! ### Joining -/

/-- Every draw before the first that is free is a member's identifier. -/
theorem exists_member_of_earlier (hroom : 0 < m.capacity) (hcapacity : m.capacity ≤ ringSize)
    (h : draws.FirstFree m.capacity m.isFree k id) {j : Nat} (hj : j < k) :
    ∃ e ∈ m.members, draws.nth j % m.capacity = e.id.val := by
  have hnonneg := Int.emod_nonneg (draws.nth j) (Int.natCast_ne_zero.mpr hroom.ne')
  have hlt := Int.emod_lt_of_pos (draws.nth j) (Int.natCast_pos.mpr hroom)
  let drawn : NodeId := ⟨(draws.nth j % m.capacity).toNat, by omega⟩
  have hdrawn : draws.nth j % m.capacity = drawn.val := (Int.toNat_of_nonneg hnonneg).symm
  have htaken := h.earlier j hj drawn hdrawn
  by_contra hnone
  have hall : ∀ e ∈ m.members, e.id ≠ drawn := fun e he hid => hnone ⟨e, he, hid ▸ hdrawn⟩
  cases htaken.symm.trans (isFree_iff.mpr hall)

/-- **Who joins gets the first identifier drawn that is free.**  On a ring of any size, whatever
requests have been made, a node that is to be admitted is: within as many draws as are scripted and
as the ring is large, one is an identifier that nobody has, and each draw before it is a member's.
It is found there however many more draws are allowed.  Members keep their identifiers and their
addresses, and the node is one more. -/
theorem registration_draws {capacity : Nat} (hcapacity : capacity ≤ ringSize) {calls : List Call}
    (hm : (empty capacity).run calls = m) (h : m.Admits a observed) (draws : Draws) :
    ∃ k id m', k < draws.scripted.length + capacity ∧
      m.register a observed draws = .ok (id, m', draws.after (k + 1)) ∧
      (∀ budget, k < budget →
        draws.pickWithin capacity m.isFree budget = some (id, draws.after (k + 1))) ∧
      draws.nth k % capacity = id.val ∧
      (∀ j < k, ∃ e ∈ m.members, draws.nth j % capacity = e.id.val) ∧
      m.Gains id a m' ∧ (∀ e ∈ m.members, m'.get? e.id = some e.address) ∧
      m'.size = m.size + 1 := by
  have hplaced : m.Placed := hm ▸ (placed_empty hcapacity).run calls
  obtain rfl : m.capacity = capacity := hm ▸ capacity_run (empty capacity) calls
  have hpos : 0 < m.capacity := Nat.zero_lt_of_lt h.room
  obtain ⟨k, hk, id, hfirst⟩ := exists_firstFree h.room hcapacity draws
  have hsearch : ∀ budget, k < budget →
      draws.pickWithin m.capacity m.isFree budget = some (id, draws.after (k + 1)) :=
    fun budget hbudget => (Draws.pickWithin_eq_some_iff hpos).mpr ⟨k, hbudget, hfirst, rfl⟩
  have hinsert := hplaced.toInOrder.insert hfirst.isFree (hfirst.val_lt hpos) h.new
  have hgains := hplaced.toInOrder.gains_insert hfirst.isFree (hfirst.val_lt hpos) h.new
  exact ⟨k, id, _, hk, register_of_pick h (hsearch _ hk), hsearch, hfirst.drawn,
    fun j hj => exists_member_of_earlier hpos hcapacity hfirst hj, hgains,
    fun e he => hinsert.get?_of_mem (mem_insert.mpr (.inr he)), hgains.others.length_eq⟩

/-- The nodes of a ring of three take the identifiers zero and one. -/
def allButOne : List Call :=
  [.register ⟨"10.0.0.1", 7001⟩ (.v4 ⟨[10, 0, 0, 1], rfl⟩) (.ofList [0]),
    .register ⟨"10.0.0.2", 7002⟩ (.v4 ⟨[10, 0, 0, 2], rfl⟩) (.ofList [3, 4])]

/-- A third node asks to join. -/
def third : Call := .register ⟨"10.0.0.3", 7003⟩ (.v4 ⟨[10, 0, 0, 3], rfl⟩) (.ofList [0, 4])

theorem admits_third : ((empty 3).run allButOne).Admits ⟨"10.0.0.3", 7003⟩
    (.v4 ⟨[10, 0, 0, 3], rfl⟩) :=
  ⟨by decide, by decide, by decide⟩

/-- A third node, for which no identifier that is scripted is free, gets the last one there is,
after as many draws as it can take. -/
theorem registration_draws_last :
    ∃ m', ((empty 3).run allButOne).register ⟨"10.0.0.3", 7003⟩ (.v4 ⟨[10, 0, 0, 3], rfl⟩)
        (.ofList [0, 4]) = .ok (2, m', ⟨[], 3⟩) ∧
      ((empty 3).run allButOne).Gains 2 ⟨"10.0.0.3", 7003⟩ m' ∧ m'.size = 3 := by
  obtain ⟨k, id, m', -, hregister, -, -, -, hgains, -, hsize⟩ :=
    registration_draws (by decide) rfl admits_third (.ofList [0, 4])
  have hrun : (((empty 3).run allButOne).register ⟨"10.0.0.3", 7003⟩ (.v4 ⟨[10, 0, 0, 3], rfl⟩)
      (.ofList [0, 4])).map (fun x => (x.1, x.2.2)) = .ok ((2 : NodeId), ⟨[], 3⟩) := by
    decide
  rw [hregister] at hrun
  obtain ⟨rfl, hafter⟩ := Prod.mk.inj (Except.ok.inj hrun)
  exact ⟨m', hafter ▸ hregister, hgains, hsize⟩

/-! ### Leaving -/

/-- Without the identifier that was put in, the members are what they were. -/
theorem erase_insert {es : List Entry} (hfree : ∀ e ∈ es, e.id ≠ id) :
    erase id (insert ⟨id, a⟩ es) = es := by
  have hkeep : ∀ {es : List Entry}, (∀ e ∈ es, e.id ≠ id) → erase id es = es := fun h =>
    List.filter_eq_self.mpr fun e he => bne_iff_ne.mpr (h e he)
  have hgone : ∀ es : List Entry, erase id (⟨id, a⟩ :: es) = erase id es := fun es =>
    List.filter_cons_of_neg (by simp)
  induction es with
  | nil => exact hgone []
  | cons x es ih =>
    obtain ⟨hx, hes⟩ := List.forall_mem_cons.mp hfree
    unfold insert
    split
    · rw [hgone, hkeep hfree]
    · have hstays : erase id (x :: insert ⟨id, a⟩ es) = x :: erase id (insert ⟨id, a⟩ es) :=
        List.filter_cons_of_pos (bne_iff_ne.mpr hx)
      rw [hstays, ih hes]

/-- A registry whose membership refuses to let a node go has the membership that it had. -/
theorem membership_of_retains {r : Registry} {link : LinkId} {peer : Peer}
    (h : r.membership.InOrder) (hpeer : r.links.end? link = some peer)
    (hretains : r.membership.Retains a id peer.ip refusal) :
    (r.receive link (.nodeDeregisters a id)).membership = r.membership := by
  have hreceive : r.receive link (.nodeDeregisters a id) = r.deregister link peer a id := by
    rw [Registry.receive, hpeer]
    rfl
  have hrefused : (r.membership.deregister a id peer.ip).map (fun _ => id) = .error refusal := by
    rw [hretains.deregister_eq]
    rfl
  rw [hreceive]
  exact (Registry.settles_deregister h link peer a id).1.refused_iff.mpr ⟨refusal, hrefused⟩

/-- **Leaving undoes joining.**  On a ring of any size, whatever requests have been made, a node
that has just joined can leave by its identifier and by its address, and the membership is then
exactly what it was before.  A request to leave is granted if and only if its node is registered
under the very address that it claims, and asks from there; then this member is taken out, and
nobody else.  Every other request is refused for the first reason there is not to grant it, and
changes nothing, in the membership as well as in the registry that has it. -/
theorem leaving_undoes_joining {capacity : Nat} (hcapacity : capacity ≤ ringSize)
    {calls : List Call} (hm : (empty capacity).run calls = m) :
    (∀ a observed draws id m' draws', m.register a observed draws = .ok (id, m', draws') →
      m'.deregister a id observed = .ok (a, m) ∧ m'.removeAddress a = (some id, m)) ∧
    ∀ a id observed,
      ((m.deregister a id observed).isOk = true ↔
        m.get? id = some a ∧ a.matchesHost observed = true) ∧
      (∀ b m', m.deregister a id observed = .ok (b, m') →
        b = a ∧ m' = { m with members := m.members.filter (·.id != id) } ∧ m'.Gains id a m) ∧
      (∀ refusal, m.deregister a id observed = .error refusal ↔
        m.Retains a id observed refusal) ∧
      ∀ refusal, m.deregister a id observed = .error refusal →
        m.call (.deregister a id observed) = m ∧
        ∀ (r : Registry) link peer, r.membership = m → r.links.end? link = some peer →
          peer.ip = observed → (r.receive link (.nodeDeregisters a id)).membership = m := by
  have hplaced : m.Placed := hm ▸ (placed_empty hcapacity).run calls
  refine ⟨fun a observed draws id m' draws' h => ?_, fun a id observed => ⟨?_, ?_, ?_, ?_⟩⟩
  · obtain ⟨hadmits, hfree, hlt, rfl⟩ := register_eq_ok h
    have hinsert := hplaced.toInOrder.insert hfree hlt hadmits.new
    have hmem : (⟨id, a⟩ : Entry) ∈ insert ⟨id, a⟩ m.members := mem_insert.mpr (.inl rfl)
    have hundone : erase id (insert ⟨id, a⟩ m.members) = m.members :=
      erase_insert (isFree_iff.mp hfree)
    rw [deregister_of_own (hinsert.get?_of_mem hmem) hadmits.host,
      hinsert.removeAddress_of_mem hmem, hundone]
    exact ⟨rfl, rfl⟩
  · cases hresult : m.deregister a id observed with
    | ok x => exact iff_of_true rfl (deregister_eq_ok_iff.mp hresult).1
    | error refusal =>
      refine iff_of_false Bool.false_ne_true fun hown => ?_
      cases (deregister_of_own hown.1 hown.2).symm.trans hresult
  · intro b m' h
    obtain ⟨⟨hsame, -⟩, rfl, rfl⟩ := deregister_eq_ok_iff.mp h
    exact ⟨rfl, rfl, hplaced.toInOrder.gains_erase (get?_eq_some hsame)⟩
  · exact fun refusal => deregister_eq_error_iff
  · intro refusal h
    refine ⟨by simp only [call, h], ?_⟩
    rintro r link peer rfl hpeer rfl
    exact membership_of_retains hplaced.toInOrder hpeer (deregister_eq_error_iff.mp h)

/-- The third node of the ring of three joins, and leaves again in either way; one that asks with
another member's address is kept. -/
theorem leaving_undoes_joining_third :
    ∃ m', ((empty 3).run allButOne).register ⟨"10.0.0.3", 7003⟩ (.v4 ⟨[10, 0, 0, 3], rfl⟩)
        (.ofList [0, 4]) = .ok (2, m', ⟨[], 3⟩) ∧
      m'.deregister ⟨"10.0.0.3", 7003⟩ 2 (.v4 ⟨[10, 0, 0, 3], rfl⟩) =
        .ok (⟨"10.0.0.3", 7003⟩, (empty 3).run allButOne) ∧
      m'.removeAddress ⟨"10.0.0.3", 7003⟩ = (some 2, (empty 3).run allButOne) ∧
      ((empty 3).run allButOne).deregister ⟨"10.0.0.2", 7002⟩ 0 (.v4 ⟨[10, 0, 0, 2], rfl⟩) =
        .error (.addressMismatch 0 ⟨"10.0.0.1", 7001⟩ ⟨"10.0.0.2", 7002⟩) := by
  obtain ⟨hundo, hleave⟩ :=
    leaving_undoes_joining (by decide) (rfl : (empty 3).run allButOne = (empty 3).run allButOne)
  have hjoin : ((empty 3).run allButOne).register ⟨"10.0.0.3", 7003⟩ (.v4 ⟨[10, 0, 0, 3], rfl⟩)
      (.ofList [0, 4]) = .ok (2, (empty 3).run (allButOne ++ [third]), ⟨[], 3⟩) := by
    decide
  refine ⟨_, hjoin, (hundo _ _ _ _ _ _ hjoin).1, (hundo _ _ _ _ _ _ hjoin).2, ?_⟩
  exact ((hleave _ _ _).2.2.1 _).mpr (.addressMismatch (by decide) (by decide))

end RingOverlay.Membership
