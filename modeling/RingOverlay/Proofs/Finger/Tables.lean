import Mathlib.Algebra.Group.Nat.Defs
import RingOverlay.Finger.Layout

/-!
# Finger — what a layout holds

If tables can be laid out over at least two members, then every member has one, in the order of the
members and labelled with its identifier, and its fingers are the members at its own position plus
the offsets, around the membership (`tables_eq_ok`, `mem_fingers`).  The first offset is one, so
every member has its successor for a finger (`one_mem_offsets`).  A table holds the entries that it
was built from, in their order, and any entries with distinct identifiers make one
(`FingerTable.ofEntries_of_nodup`).
-/

namespace RingOverlay

/-! ### Tables from entries -/

namespace FingerTable

variable {t t' : FingerTable} {es : List Entry}

theorem eq_of_entries (h : t.entries = t'.entries) : t = t' := by
  cases t
  cases t'
  cases h
  rfl

theorem push_entries {e : Entry} (h : t.push e = .ok t') : t'.entries = t.entries ++ [e] := by
  unfold push at h
  split at h
  · cases h
  · cases h
    rfl

theorem pushAll_entries (h : pushAll es t = .ok t') : t'.entries = t.entries ++ es := by
  induction es generalizing t with
  | nil =>
    cases h
    rw [List.append_nil]
  | cons e es ih =>
    simp only [pushAll] at h
    split at h
    · next t₁ h₁ => rw [ih h, push_entries h₁, List.append_assoc, List.singleton_append]
    · cases h

theorem ofEntries_entries (h : ofEntries es = .ok t) : t.entries = es := by
  rw [pushAll_entries h]
  rfl

/-- Whoever stands in a table behind others can be pushed onto them. -/
theorem push_of_entries {e : Entry} (h : t'.entries = t.entries ++ e :: es) :
    ∃ t₁, t.push e = .ok t₁ ∧ t₁.entries = t.entries ++ [e] := by
  have hnone : t.get? e.id = none := by
    refine List.find?_eq_none.mpr fun x hx hid => ?_
    have hnodup := t'.nodup_ids
    rw [h, List.map_append, List.nodup_append] at hnodup
    exact hnodup.2.2 _ (List.mem_map_of_mem hx) _ (List.mem_map_of_mem List.mem_cons_self)
      (beq_iff_eq.mp hid)
  cases hpush : t.push e with
  | ok t₁ => exact ⟨t₁, rfl, push_entries hpush⟩
  | error refusal =>
    unfold push at hpush
    split at hpush
    · next hsome => cases hnone.symm.trans hsome
    · cases hpush

theorem pushAll_of_entries (h : t'.entries = t.entries ++ es) : pushAll es t = .ok t' := by
  induction es generalizing t with
  | nil =>
    rw [List.append_nil] at h
    exact congrArg Except.ok (eq_of_entries h.symm)
  | cons e es ih =>
    obtain ⟨t₁, ht, hes⟩ := push_of_entries h
    simp only [pushAll, ht]
    refine ih ?_
    rw [h, hes, List.append_assoc, List.singleton_append]

/-- Entries with distinct identifiers make a table, in the order in which they come. -/
theorem ofEntries_of_nodup (h : (es.map Entry.id).Nodup) : ofEntries es = .ok ⟨es, h⟩ :=
  pushAll_of_entries rfl

end FingerTable

namespace Layout

/-! ### Offsets and fingers -/

theorem offsetsFrom_eq (nodes size k : Nat) :
    offsetsFrom nodes size (2 ^ k % nodes) =
      (List.range size).map fun e => 2 ^ (k + e) % nodes := by
  induction size generalizing k with
  | zero => rfl
  | succ size ih =>
    have hnext : 2 ^ k % nodes * 2 % nodes = 2 ^ (k + 1) % nodes := by
      rw [pow_succ, Nat.mul_mod, Nat.mod_mod, ← Nat.mul_mod]
    rw [offsetsFrom, hnext, ih, List.range_succ_eq_map, List.map_cons, List.map_map]
    refine congrArg _ (List.map_congr_left fun e _ => ?_)
    rw [Function.comp_apply, Nat.succ_eq_add_one, Nat.add_assoc, Nat.add_comm 1 e]

/-- The offset of entry `e` is `2 ^ e`, modulo the number of nodes. -/
theorem offsets_eq (nodes size : Nat) :
    offsets nodes size = (List.range size).map fun e => 2 ^ e % nodes := by
  have hall := offsetsFrom_eq nodes size 0
  simp only [Nat.zero_add, pow_zero] at hall
  exact hall

theorem one_mem_offsets {nodes size : Nat} (hn : 2 ≤ nodes) (hs : size ≠ 0) :
    1 ∈ offsets nodes (min size nodes) := by
  rw [offsets_eq]
  refine List.mem_map.mpr ⟨0, List.mem_range.mpr (by omega), ?_⟩
  exact Nat.mod_eq_of_lt hn

theorem mem_fingers {members : List Entry} {offs : List Nat} {i : Nat} {e : Entry} :
    e ∈ fingers members offs i ↔ ∃ o ∈ offs, members[(i + o) % members.length]? = some e :=
  List.mem_filterMap

/-! ### Tables of a membership -/

theorem tablesFrom_eq_ok {members : List Entry} {offs : List Nat} {ms : List Entry} {p : Nat}
    {ts : List (NodeId × FingerTable)} (h : tablesFrom members offs p ms = .ok ts) :
    ts.map Prod.fst = ms.map Entry.id ∧
      ∀ i m, ms[i]? = some m →
        ∃ t, ts[i]? = some (m.id, t) ∧ t.entries = fingers members offs (p + i) := by
  induction ms generalizing p ts with
  | nil =>
    cases h
    exact ⟨rfl, fun i m hm => by simp at hm⟩
  | cons m ms ih =>
    simp only [tablesFrom] at h
    split at h
    · cases h
    · next t ht =>
      split at h
      · cases h
      · next rest hrest =>
        cases h
        obtain ⟨hids, hall⟩ := ih hrest
        refine ⟨by rw [List.map_cons, List.map_cons, hids], fun i x hx => ?_⟩
        cases i with
        | zero =>
          cases hx
          exact ⟨t, rfl, FingerTable.ofEntries_entries ht⟩
        | succ i =>
          obtain ⟨t', ht', hes⟩ := hall i x hx
          exact ⟨t', ht', by rw [hes, Nat.add_right_comm, Nat.add_assoc]⟩

/-- **The tables of an overlay.**  Over at least two members, a layout gives each of them its own
table of fingers. -/
theorem tables_eq_ok {members : List Entry} {size : Nat} {ts : List (NodeId × FingerTable)}
    (hn : 2 ≤ members.length) (h : tables members size = .ok ts) :
    size ≠ 0 ∧ ts.map Prod.fst = members.map Entry.id ∧
      ∀ i m, members[i]? = some m → ∃ t, ts[i]? = some (m.id, t) ∧
        t.entries = fingers members (offsets members.length (min size members.length)) i := by
  unfold tables at h
  split at h
  · cases h
  · simp at hn
  · split at h
    · cases h
    · next hs =>
      simp only at h
      split at h
      · cases h
      · cases h
      · obtain ⟨hids, hall⟩ := tablesFrom_eq_ok h
        refine ⟨hs, hids, fun i m hm => ?_⟩
        obtain ⟨t, ht, hes⟩ := hall i m hm
        exact ⟨t, ht, by rw [hes, Nat.zero_add]⟩

/-- A layout has one table for each member, labelled with its identifier; also for a lone one. -/
theorem tables_ids {members : List Entry} {size : Nat} {ts : List (NodeId × FingerTable)}
    (h : tables members size = .ok ts) : ts.map Prod.fst = members.map Entry.id := by
  match members with
  | [] => cases h
  | [m] =>
    simp only [tables] at h
    split at h
    · cases h
    · cases h
      rfl
  | m :: m' :: ms => exact (tables_eq_ok (by simp) h).2.1

end Layout

end RingOverlay
