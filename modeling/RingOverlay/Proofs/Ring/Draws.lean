import Mathlib.Order.Nat
import RingOverlay.Ring.Draws

/-!
# Ring — what is drawn, and when it is picked

A generator is told by the values that it yields one after the other (`Draws.nth`).  A search for a
free identifier ends at the first draw that is one (`FirstFree`), however many draws it is allowed,
if it is allowed as many (`pickWithin_eq_some_iff`).  Past the script, `n` draws meet every residue
modulo `n` (`exists_nth_eq`), so that no free identifier below `n` is missed for longer than that
(`exists_firstFree`).
-/

namespace RingOverlay

theorem NodeId.ofNat?_eq_some_iff {v : Nat} {id : NodeId} : ofNat? v = some id ↔ v = id.val := by
  unfold ofNat?
  constructor
  · intro h
    split at h
    · cases h
      rfl
    · cases h
  · rintro rfl
    exact dif_pos id.isLt

namespace Draws

variable {n budget k : Nat} {free : NodeId → Bool} {d d' : Draws} {id : NodeId}

/-! ### What a generator yields -/

/-- The value that a generator yields after `k` others. -/
def nth (d : Draws) (k : Nat) : Int :=
  d.scripted[k]?.getD (d.next + (k - d.scripted.length) : Nat)

/-- The generator once it has yielded `k` values. -/
def after (d : Draws) : Nat → Draws
  | 0 => d
  | k + 1 => d.draw.2.after k

theorem draw_fst (d : Draws) : d.draw.1 = d.nth 0 := by
  obtain ⟨scripted, next⟩ := d
  cases scripted <;> rfl

/-- Once a value is drawn, those after it follow. -/
theorem nth_draw (d : Draws) (k : Nat) : d.draw.2.nth k = d.nth (k + 1) := by
  obtain ⟨scripted, next⟩ := d
  cases scripted with
  | nil =>
    change ((next + 1 + (k - 0) : Nat) : Int) = (next + (k + 1 - 0) : Nat)
    omega
  | cons v rest => simp [draw, nth]

/-- After the script, successive numbers follow. -/
theorem nth_length_add (d : Draws) (k : Nat) :
    d.nth (d.scripted.length + k) = (d.next + k : Nat) := by
  unfold nth
  rw [List.getElem?_eq_none (Nat.le_add_right _ _), Nat.add_sub_cancel_left]
  rfl

/-- By the `n`-th draw after the script, every residue modulo `n` has been met. -/
theorem exists_nth_eq (d : Draws) {v : Nat} (hv : v < n) :
    ∃ k < d.scripted.length + n, d.nth k % n = v := by
  have hn : 0 < n := Nat.zero_lt_of_lt hv
  have hmod : d.next % n < n := Nat.mod_lt _ hn
  have hmet : (d.next + (v + (n - d.next % n)) % n) % n = v := by
    rw [Nat.add_mod, Nat.mod_mod, ← Nat.add_mod]
    have hdiv := Nat.div_add_mod d.next n
    have hsum : d.next + (v + (n - d.next % n)) = v + n * (d.next / n + 1) := by
      rw [Nat.mul_add]; omega
    rw [hsum, Nat.add_mul_mod_self_left, Nat.mod_eq_of_lt hv]
  refine ⟨d.scripted.length + (v + (n - d.next % n)) % n,
    Nat.add_lt_add_left (Nat.mod_lt _ hn) _, ?_⟩
  rw [nth_length_add, ← Int.natCast_emod, hmet]

/-! ### Searching for a free identifier -/

/-- The draw after `k` others, modulo `n`, is the identifier `id`, which is free, and no draw before
it is a free identifier. -/
structure FirstFree (d : Draws) (n : Nat) (free : NodeId → Bool) (k : Nat) (id : NodeId) :
    Prop where
  drawn : d.nth k % n = id.val
  isFree : free id = true
  earlier : ∀ j < k, ∀ id' : NodeId, d.nth j % n = id'.val → free id' = false

/-- A free identifier that is drawn at all is drawn first at some time. -/
theorem exists_firstFree (hdrawn : d.nth k % n = id.val) (hfree : free id = true) :
    ∃ j ≤ k, ∃ first, d.FirstFree n free j first := by
  classical
  have hexists : ∃ j, ∃ id : NodeId, d.nth j % n = id.val ∧ free id = true :=
    ⟨k, id, hdrawn, hfree⟩
  obtain ⟨first, hfirst, hfirstFree⟩ := Nat.find_spec hexists
  refine ⟨Nat.find hexists, Nat.find_min' hexists ⟨id, hdrawn, hfree⟩, first, hfirst, hfirstFree,
    fun j hj id' hid' => ?_⟩
  exact Bool.not_eq_true _ ▸ fun hfree' => Nat.find_min hexists hj ⟨id', hid', hfree'⟩

/-- If the next draw is no free identifier, the search goes on with the generator after it. -/
theorem firstFree_succ_iff (hskip : ∀ id' : NodeId, d.nth 0 % n = id'.val → free id' = false) :
    d.FirstFree n free (k + 1) id ↔ d.draw.2.FirstFree n free k id := by
  constructor
  · rintro ⟨hdrawn, hfree, hearlier⟩
    refine ⟨nth_draw d k ▸ hdrawn, hfree, fun j hj id' hid' => ?_⟩
    exact hearlier (j + 1) (Nat.succ_lt_succ hj) id' (nth_draw d j ▸ hid')
  · rintro ⟨hdrawn, hfree, hearlier⟩
    refine ⟨nth_draw d k ▸ hdrawn, hfree, fun j hj id' hid' => ?_⟩
    cases j with
    | zero => exact hskip id' hid'
    | succ j => exact hearlier j (Nat.lt_of_succ_lt_succ hj) id' (nth_draw d j ▸ hid')

theorem ofNat?_below (hn : 0 < n) :
    NodeId.ofNat? (d.below n).1 = some id ↔ d.nth 0 % n = id.val := by
  rw [NodeId.ofNat?_eq_some_iff, below, draw_fst]
  have hnonneg := Int.emod_nonneg (d.nth 0) (Int.natCast_ne_zero.mpr hn.ne')
  omega

theorem pickWithin_of_hit (hn : 0 < n) (hdrawn : d.nth 0 % n = id.val) (hfree : free id = true) :
    pickWithin n free (budget + 1) d = some (id, d.draw.2) := by
  simp only [pickWithin, (ofNat?_below hn).mpr hdrawn, hfree, if_true]
  rfl

theorem pickWithin_of_skip (hn : 0 < n)
    (hskip : ∀ id' : NodeId, d.nth 0 % n = id'.val → free id' = false) :
    pickWithin n free (budget + 1) d = pickWithin n free budget d.draw.2 := by
  simp only [pickWithin]
  split
  · next id' hid' =>
    rw [hskip id' ((ofNat?_below hn).mp hid'), if_neg Bool.false_ne_true]
    rfl
  · rfl

/-- **A search picks the first draw that is a free identifier**, if it comes within the draws that
are allowed, and draws no further. -/
theorem pickWithin_eq_some_iff (hn : 0 < n) : pickWithin n free budget d = some (id, d') ↔
    ∃ k < budget, d.FirstFree n free k id ∧ d' = d.after (k + 1) := by
  induction budget generalizing d with
  | zero => exact iff_of_false nofun fun ⟨_, hk, _⟩ => Nat.not_lt_zero _ hk
  | succ budget ih =>
    by_cases hhit : ∃ id₀ : NodeId, d.nth 0 % n = id₀.val ∧ free id₀ = true
    · obtain ⟨id₀, hdrawn, hfree⟩ := hhit
      rw [pickWithin_of_hit hn hdrawn hfree, Option.some_inj, Prod.mk.injEq]
      constructor
      · rintro ⟨rfl, rfl⟩
        exact ⟨0, Nat.succ_pos budget, ⟨hdrawn, hfree, nofun⟩, rfl⟩
      · rintro ⟨k, -, hfirst, rfl⟩
        cases k with
        | zero =>
          have hid := Int.natCast_inj.mp (hdrawn.symm.trans hfirst.drawn)
          exact ⟨Fin.ext hid, rfl⟩
        | succ k =>
          have htaken := hfirst.earlier 0 (Nat.succ_pos k) id₀ hdrawn
          cases htaken.symm.trans hfree
    · have hskip : ∀ id' : NodeId, d.nth 0 % n = id'.val → free id' = false :=
        fun id' hid' => Bool.not_eq_true _ ▸ fun hfree => hhit ⟨id', hid', hfree⟩
      rw [pickWithin_of_skip hn hskip, ih]
      constructor
      · rintro ⟨k, hk, hfirst, rfl⟩
        exact ⟨k + 1, Nat.succ_lt_succ hk, (firstFree_succ_iff hskip).mpr hfirst, rfl⟩
      · rintro ⟨k, hk, hfirst, rfl⟩
        cases k with
        | zero => exact absurd ⟨id, hfirst.drawn, hfirst.isFree⟩ hhit
        | succ k =>
          exact ⟨k, Nat.lt_of_succ_lt_succ hk, (firstFree_succ_iff hskip).mp hfirst, rfl⟩

/-- What is picked is free, and below the bound. -/
theorem FirstFree.val_lt (hn : 0 < n) (h : d.FirstFree n free k id) : id.val < n := by
  have hlt := Int.emod_lt_of_pos (d.nth k) (Int.natCast_pos.mpr hn)
  rw [h.drawn] at hlt
  exact Int.ofNat_lt.mp hlt

end Draws

end RingOverlay
