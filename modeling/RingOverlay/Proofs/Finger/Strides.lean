import Mathlib.Data.Nat.BitIndices
import RingOverlay.Proofs.Finger.Nearest
import RingOverlay.Proofs.Finger.Offsets
import RingOverlay.Proofs.Finger.Walk

/-!
# Finger — how many hops a walk takes

If the offsets `1, 2, 4, …` of a table do not come around, its fingers are as many members ahead.
The nearest finger to a destination is then the one at the longest offset that does not overshoot
(`hop_stride`): what overshoots lies nearly a whole round behind the destination.  So a walk takes
the longest offset as often as it fits, and then one hop for every binary digit of what is left
(`hops`).

* `hops_sub`: one hop less is due after the longest stride.
* `length_trail`: so many hops are taken, by induction on how far it is to go.
* `hops_exact`: **the number of hops of a walk**, for every pair of members.
-/

namespace RingOverlay.Layout

variable {members : List Entry} {size : Nat} {ts : List (NodeId × FingerTable)} {d s : Nat}

/-! ### The longest stride -/

/-- Of the first `size` powers of two, `2 ^ s` is the greatest that is not greater than `d`. -/
structure LongestStride (size d s : Nat) : Prop where
  lt : s < size
  le : 2 ^ s ≤ d
  longest : ∀ e < size, 2 ^ e ≤ d → e ≤ s

theorem exists_longestStride (hs : 0 < size) (hd : 0 < d) : ∃ s, LongestStride size d s := by
  refine ⟨Nat.findGreatest (fun e => 2 ^ e ≤ d) (size - 1), ?_, ?_, ?_⟩
  · have hle := Nat.findGreatest_le (P := fun e => 2 ^ e ≤ d) (size - 1)
    omega
  · exact Nat.findGreatest_spec (P := fun e => 2 ^ e ≤ d) (Nat.zero_le (size - 1)) hd
  · intro e he hed
    exact Nat.le_findGreatest (by omega) hed

/-- The hops to a place `d` ahead, if each takes the longest stride that does not overshoot. -/
def hops (size d : Nat) : Nat :=
  d / 2 ^ (size - 1) + (d % 2 ^ (size - 1)).bitIndices.length

@[simp] theorem hops_zero (size : Nat) : hops size 0 = 0 := by
  simp [hops]

theorem bitIndices_add_two_pow {r m : Nat} (h : r < 2 ^ m) :
    (r + 2 ^ m).bitIndices = r.bitIndices ++ [m] := by
  have hsorted : (r.bitIndices ++ [m]).SortedLT := by
    refine (List.pairwise_append.mpr ⟨Nat.bitIndices_sorted.pairwise, List.pairwise_singleton _ _,
      fun i hi j hj => ?_⟩).sortedLT
    rw [List.mem_singleton.mp hj]
    exact (Nat.pow_lt_pow_iff_right (by decide)).mp
      ((Nat.two_pow_le_of_mem_bitIndices hi).trans_lt h)
  have hsum : ((r.bitIndices ++ [m]).map fun i => 2 ^ i).sum = r + 2 ^ m := by
    rw [List.map_append, List.sum_append, Nat.sum_map_two_pow_bitIndices, List.map_singleton,
      List.sum_singleton]
  rw [← hsum]
  exact Nat.bitIndices_sum_map_two_pow hsorted

/-- **One hop less** is due from where the longest stride leads. -/
theorem hops_sub (h : LongestStride size d s) : hops size (d - 2 ^ s) + 1 = hops size d := by
  have hlt := h.lt
  have hle := h.le
  rcases Nat.lt_or_ge d (2 ^ (size - 1)) with hshort | hlong
  -- what is left is less than the longest offset: the stride is its leading digit
  · have hs : s < size - 1 := (Nat.pow_lt_pow_iff_right (by decide)).mp (hle.trans_lt hshort)
    have hnext : d < 2 ^ (s + 1) := by
      by_contra hge
      have := h.longest (s + 1) (by omega) (Nat.not_lt.mp hge)
      omega
    have hrest : d - 2 ^ s < 2 ^ s := by
      rw [Nat.pow_succ] at hnext
      omega
    have hdigits := congrArg List.length (bitIndices_add_two_pow hrest)
    rw [Nat.sub_add_cancel hle, List.length_append] at hdigits
    rw [hops, hops, Nat.div_eq_of_lt hshort, Nat.mod_eq_of_lt hshort,
      Nat.div_eq_of_lt (by omega), Nat.mod_eq_of_lt (by omega), hdigits]
    rfl
  · have hs : s = size - 1 := by
      have := h.longest (size - 1) (by omega) hlong
      omega
    subst hs
    rw [hops, hops, ← Nat.mod_eq_sub_mod hlong, Nat.div_eq_sub_div (Nat.two_pow_pos _) hlong]
    omega

/-! ### One hop -/

theorem distance_add_of_le (ha : members.Pairwise fun a b => a.id < b.id) {i o : Nat}
    {m x dst : Entry} (hi : members[i]? = some m) (hd : dst ∈ members)
    (hx : members[(i + o) % members.length]? = some x) (ho : o ≤ distance members m.id dst.id) :
    distance members x.id dst.id = distance members m.id dst.id - o := by
  obtain ⟨j, hj⟩ := List.getElem?_of_mem hd
  rw [distance_eq ha hi hj] at ho ⊢
  rw [distance_eq ha hx hj]
  exact clockwise_add_of_le (List.getElem?_eq_some_iff.mp hi).1
    (List.getElem?_eq_some_iff.mp hj).1 ho

theorem distance_add_of_lt (ha : members.Pairwise fun a b => a.id < b.id) {i o : Nat}
    {m x dst : Entry} (hi : members[i]? = some m) (hd : dst ∈ members)
    (hx : members[(i + o) % members.length]? = some x) (hlt : o < members.length)
    (ho : distance members m.id dst.id < o) :
    distance members x.id dst.id = distance members m.id dst.id + members.length - o := by
  obtain ⟨j, hj⟩ := List.getElem?_of_mem hd
  rw [distance_eq ha hi hj] at ho ⊢
  rw [distance_eq ha hx hj]
  exact clockwise_add_of_lt (List.getElem?_eq_some_iff.mp hi).1
    (List.getElem?_eq_some_iff.mp hj).1 hlt ho

namespace Laid

/-- If the offsets do not come around, the fingers of a member are the powers of two ahead. -/
theorem mem_table_iff (hl : Laid members size ts) (hpow : 2 ^ (size - 1) < members.length)
    {i : Nat} {m : Entry} (hi : members[i]? = some m) {t : FingerTable}
    (ht : ts.lookup m.id = some t) {x : Entry} :
    x ∈ t.entries ↔ ∃ e < size, members[(i + 2 ^ e) % members.length]? = some x := by
  obtain ⟨t', -, ht', hes⟩ := hl.table_at hi
  obtain rfl := Option.some.inj (ht.symm.trans ht')
  have hsize : size ≤ members.length := by
    have := Nat.lt_two_pow_self (n := size - 1)
    omega
  rw [hes, mem_fingers, Nat.min_eq_left hsize]
  constructor
  · rintro ⟨o, ho, hx⟩
    obtain ⟨e, he, rfl⟩ := mem_offsets.mp ho
    rw [Nat.add_mod_mod] at hx
    exact ⟨e, he, hx⟩
  · rintro ⟨e, he, hx⟩
    refine ⟨2 ^ e % members.length, mem_offsets.mpr ⟨e, he, rfl⟩, ?_⟩
    rwa [Nat.add_mod_mod]

/-- **A hop takes the longest stride** that does not overshoot the destination. -/
theorem hop_stride (hl : Laid members size ts) (hpow : 2 ^ (size - 1) < members.length)
    {dst m : Entry} (hd : dst ∈ members) (hm : m ∈ members) {t : FingerTable}
    (ht : ts.lookup m.id = some t) {hop : Hop} (hhop : t.nextHop dst.id = some hop)
    (hs : LongestStride size (distance members m.id dst.id) s) :
    distance members hop.entry.id dst.id = distance members m.id dst.id - 2 ^ s := by
  obtain ⟨i, hi⟩ := List.getElem?_of_mem hm
  have hlt : ∀ e < size, 2 ^ e < members.length := fun e he =>
    (Nat.pow_le_pow_right Nat.two_pos (by omega)).trans_lt hpow
  have hpos : 0 < members.length := (Nat.two_pow_pos _).trans hpow
  obtain ⟨x, hx⟩ : ∃ x, members[(i + 2 ^ s) % members.length]? = some x :=
    ⟨_, List.getElem?_eq_getElem (Nat.mod_lt _ hpos)⟩
  have hdist := distance_add_of_le hl.ascending hi hd hx hs.le
  have hmem : x ∈ t.entries := (hl.mem_table_iff hpow hi ht).mpr ⟨s, hs.lt, hx⟩
  have hnear : t.Nearest dst.id x := by
    refine ⟨hmem, fun y hy => ?_⟩
    obtain ⟨e, he, hye⟩ := (hl.mem_table_iff hpow hi ht).mp hy
    have hle : ¬ distance members y.id dst.id < distance members x.id dst.id := by
      rcases Nat.lt_or_ge (distance members m.id dst.id) (2 ^ e) with hover | hwithin
      · rw [hdist, distance_add_of_lt hl.ascending hi hd hye (hlt e he) hover]
        have hround : distance members m.id dst.id ≤
            distance members m.id dst.id + members.length - 2 ^ e := by
          have := hlt e he
          omega
        exact Nat.not_lt.mpr ((Nat.sub_le _ _).trans hround)
      · rw [hdist, distance_add_of_le hl.ascending hi hd hye hwithin]
        have := Nat.pow_le_pow_right Nat.two_pos (hs.longest e he hwithin)
        omega
    rw [distance_lt_iff hl.ascending (List.mem_of_getElem? hye) (List.mem_of_getElem? hx) hd]
      at hle
    exact Nat.not_lt.mp hle
  obtain rfl : hop.entry = x := (FingerTable.nearest_of_nextHop hhop).eq hnear
  exact hdist

/-! ### The walk -/

/-- **How many hops are taken**: as many as longest strides lead to the destination. -/
theorem length_trail (hl : Laid members size ts) (hpow : 2 ^ (size - 1) < members.length)
    {dst m : Entry} (hd : dst ∈ members) (hm : m ∈ members) {k : Nat}
    (hk : distance members m.id dst.id ≤ k) :
    (trail ts dst.id k m.id).length = hops size (distance members m.id dst.id) := by
  -- induction on how far it is to go, which every hop lowers by the longest stride
  induction hg : distance members m.id dst.id using Nat.strongRecOn generalizing m k with
  | _ g ih =>
    subst hg
    by_cases hne : m.id = dst.id
    · have hself : distance members dst.id dst.id = 0 := by
        obtain ⟨j, hj⟩ := List.getElem?_of_mem hd
        rw [distance_eq hl.ascending hj hj, clockwise_self (List.getElem?_eq_some_iff.mp hj).1]
      rw [hne, trail_self, hself, hops_zero]
      rfl
    · obtain ⟨t, hop, ht, hhop, hnext⟩ := hl.hop_exists dst.id hm
      have hcloser := hl.hop_closer hd hm hne ht hhop
      have hsize := Nat.pos_of_ne_zero (tables_eq_ok hl.several hl.tables).1
      obtain ⟨s, hs⟩ := exists_longestStride hsize (Nat.zero_lt_of_lt hcloser)
      obtain ⟨k, rfl⟩ : ∃ j, k = j + 1 := ⟨k - 1, by omega⟩
      rw [trail_succ hne (hop?_eq_some ht hhop), List.length_cons, ← hops_sub hs,
        ← hl.hop_stride hpow hd hm ht hhop hs]
      exact congrArg (· + 1) (ih _ hcloser hnext (by omega) rfl)

end Laid

/-- **The number of hops of a walk.**  Over any ascending membership of at least two, tables can be
laid out of any size whose greatest offset is less than the number of members.  From a member to
another that is `d` places ahead, a walk then takes `d / 2 ^ (size - 1)` hops by the greatest
offset, and one more for every digit 1 in what is left. -/
theorem hops_exact (ha : members.Pairwise fun a b => a.id < b.id) (hn : 2 ≤ members.length)
    (hs : 1 ≤ size) (hpow : 2 ^ (size - 1) < members.length) :
    ∃ ts, tables members size = .ok ts ∧
      ∀ src ∈ members.map Entry.id, ∀ dst ∈ members.map Entry.id, src ≠ dst →
        ∃ relays, Route members ts src dst relays ∧
          (relays ++ [dst]).length = distance members src dst / 2 ^ (size - 1) +
            (distance members src dst % 2 ^ (size - 1)).bitIndices.length := by
  have hd : (members.map Entry.id).Nodup :=
    List.pairwise_map.mpr (ha.imp fun h => Fin.ne_of_lt h)
  have hpos : 0 < members.length := by omega
  obtain ⟨last, -, hf⟩ := exists_firstClash hpos
  have hle : size ≤ last := by
    have := hf.le_of_pow_lt hpow
    omega
  obtain ⟨ts, hts⟩ := exists_tables hn hd (by omega) hf hle
  have hl : Laid members size ts := ⟨ha, hn, hts⟩
  refine ⟨ts, hts, fun src hsrc dst hdst hne => ?_⟩
  obtain ⟨relays, hroute⟩ := hl.exists_route hsrc hdst hne
  obtain ⟨m, hm, rfl⟩ := List.mem_map.mp hsrc
  obtain ⟨x, hx, rfl⟩ := List.mem_map.mp hdst
  have hdistance : distance members m.id x.id ≤ members.length - 1 :=
    Nat.le_sub_one_of_lt (clockwise_lt (by omega) _ _)
  have hlength := hl.length_trail hpow hx hm hdistance
  rw [hroute.arrives _ (le_refl _)] at hlength
  exact ⟨relays, hroute, hlength⟩

/-- Seven places around the nine members, past the end, are one hop of four, one of two and one of
one. -/
theorem hops_exact_nine :
    ∃ ts, tables nine 3 = .ok ts ∧
      ∃ relays, Route nine ts 73 45 relays ∧ (relays ++ [45]).length = 3 := by
  have hn : 2 ≤ nine.length := by decide
  have hs : 1 ≤ 3 := by decide
  obtain ⟨ts, hts, hall⟩ := hops_exact (by decide) hn hs (by decide)
  obtain ⟨relays, hroute, hlength⟩ := hall 73 (by decide) 45 (by decide) (by decide)
  have hdistance : distance nine 73 45 = 7 := by decide
  have hdigits : (7 % 2 ^ (3 - 1)).bitIndices = [0, 1] :=
    Nat.bitIndices_sum_map_two_pow (L := [0, 1]) (by decide)
  rw [hdistance, hdigits] at hlength
  exact ⟨ts, hts, relays, hroute, hlength⟩

end RingOverlay.Layout
