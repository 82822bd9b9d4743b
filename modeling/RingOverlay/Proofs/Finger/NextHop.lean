import RingOverlay.Finger.Table
import RingOverlay.Proofs.Ring.Clockwise

/-!
# Finger — what the forwarding rule chooses

The rule compares identifiers as numbers: the finger itself, else the greatest below the
destination, else the greatest of all (`nextHop_cases`).  Read on the ring, the three branches are
one: the finger chosen is one from which it is least far, clockwise, to the destination
(`nextHop_closest`).  There is always a choice unless the table is empty (`nextHop_eq_none_iff`).
-/

namespace RingOverlay.FingerTable

/-! ### Looking up -/

theorem get?_eq_some {t : FingerTable} {id : NodeId} {e : Entry} (h : t.get? id = some e) :
    e ∈ t.entries ∧ e.id = id := by
  refine ⟨List.mem_of_find?_eq_some h, ?_⟩
  simpa using List.find?_some h

theorem id_ne_of_get?_eq_none {t : FingerTable} {id : NodeId} (h : t.get? id = none) {e : Entry}
    (he : e ∈ t.entries) : e.id ≠ id := by
  intro hid
  exact not_mem_ids_of_get?_eq_none h (hid ▸ List.mem_map_of_mem he)

/-! ### The greatest entry -/

theorem greatest?_eq_none_iff {es : List Entry} : greatest? es = none ↔ es = [] := by
  cases es with
  | nil => simp [greatest?]
  | cons e es =>
    simp only [greatest?, reduceCtorEq, iff_false]
    split
    · split <;> simp
    · simp

theorem greatest?_eq_some {es : List Entry} {best : Entry} (h : greatest? es = some best) :
    best ∈ es ∧ ∀ e ∈ es, e.id ≤ best.id := by
  induction es generalizing best with
  | nil => simp [greatest?] at h
  | cons e es ih =>
    simp only [greatest?] at h
    split at h
    · next b hb =>
      obtain ⟨hmem, hmax⟩ := ih hb
      split at h
      · next hlt =>
        cases h
        refine ⟨List.mem_cons_self, fun x hx => ?_⟩
        rcases List.mem_cons.mp hx with rfl | hx
        · exact Nat.le_refl _
        · exact Nat.le_trans (hmax x hx) (Nat.le_of_lt hlt)
      · next hle =>
        cases h
        refine ⟨List.mem_cons_of_mem _ hmem, fun x hx => ?_⟩
        rcases List.mem_cons.mp hx with rfl | hx
        · exact Nat.not_lt.mp hle
        · exact hmax x hx
    · next hnone =>
      cases h
      obtain rfl := greatest?_eq_none_iff.mp hnone
      simp

/-! ### The choice -/

theorem nextHop_eq_none_iff {t : FingerTable} {dst : NodeId} :
    t.nextHop dst = none ↔ t.entries = [] := by
  unfold nextHop
  split
  · next e he =>
    simp only [reduceCtorEq, false_iff]
    exact List.ne_nil_of_mem (get?_eq_some he).1
  · split
    · next e he =>
      simp only [reduceCtorEq, false_iff]
      exact List.ne_nil_of_mem (List.mem_filter.mp (greatest?_eq_some he).1).1
    · rw [Option.map_eq_none_iff, greatest?_eq_none_iff]

/-- The three branches of the rule. -/
theorem nextHop_cases {t : FingerTable} {dst : NodeId} {hop : Hop} (h : t.nextHop dst = some hop) :
    (∃ e ∈ t.entries, hop = .exact e ∧ e.id = dst) ∨
    (∃ e ∈ t.entries, hop = .preceding e ∧ e.id < dst ∧ (∀ x ∈ t.entries, x.id ≠ dst) ∧
      ∀ x ∈ t.entries, x.id < dst → x.id ≤ e.id) ∨
    (∃ e ∈ t.entries, hop = .wraparound e ∧ ∀ x ∈ t.entries, dst < x.id ∧ x.id ≤ e.id) := by
  unfold nextHop at h
  split at h
  · next e he =>
    cases h
    exact .inl ⟨e, (get?_eq_some he).1, rfl, (get?_eq_some he).2⟩
  · next hnone =>
    split at h
    · next e he =>
      cases h
      obtain ⟨hmem, hmax⟩ := greatest?_eq_some he
      obtain ⟨hmem, hlt⟩ := List.mem_filter.mp hmem
      refine .inr (.inl ⟨e, hmem, rfl, of_decide_eq_true hlt,
        fun x hx => id_ne_of_get?_eq_none hnone hx, fun x hx hxd => hmax x ?_⟩)
      exact List.mem_filter.mpr ⟨hx, decide_eq_true hxd⟩
    · next hbelow =>
      obtain ⟨e, he, rfl⟩ := Option.map_eq_some_iff.mp h
      obtain ⟨hmem, hmax⟩ := greatest?_eq_some he
      refine .inr (.inr ⟨e, hmem, rfl, fun x hx => ⟨?_, hmax x hx⟩⟩)
      have hnot := List.filter_eq_nil_iff.mp (greatest?_eq_none_iff.mp hbelow) x hx
      have hne := id_ne_of_get?_eq_none hnone hx
      simp only [decide_eq_true_eq, Fin.not_lt] at hnot
      exact Nat.lt_of_le_of_ne hnot fun hxd => hne (Fin.ext hxd.symm)

theorem nextHop_mem {t : FingerTable} {dst : NodeId} {hop : Hop} (h : t.nextHop dst = some hop) :
    hop.entry ∈ t.entries := by
  rcases nextHop_cases h with ⟨e, he, rfl, _⟩ | ⟨e, he, rfl, _⟩ | ⟨e, he, rfl, _⟩ <;> exact he

/-- **The closest finger.**  From no finger is it less far to the destination than from the one
that is chosen. -/
theorem nextHop_closest {t : FingerTable} {dst : NodeId} {hop : Hop}
    (h : t.nextHop dst = some hop) {x : Entry} (hx : x ∈ t.entries) :
    clockwise ringSize hop.entry.id dst ≤ clockwise ringSize x.id dst := by
  have hd := dst.isLt
  have hxr := x.id.isLt
  -- only in the last case is the destination behind every finger, past the wrap-around
  rcases nextHop_cases h with ⟨e, _, rfl, rfl⟩ | ⟨e, _, rfl, hlt, hne, hmax⟩ | ⟨e, _, rfl, hall⟩
  · rw [Hop.entry, clockwise_self hd]
    exact Nat.zero_le _
  · rw [Hop.entry, clockwise_of_le (Nat.le_of_lt hlt) hd]
    rcases Nat.lt_or_ge dst.val x.id.val with hxd | hxd
    · rw [clockwise_of_lt hxd hxr]
      omega
    · rw [clockwise_of_le hxd hd]
      have hne : x.id.val ≠ dst.val := fun hxd => hne x hx (Fin.ext hxd)
      have hle : x.id.val ≤ e.id.val := hmax x hx (Nat.lt_of_le_of_ne hxd hne)
      omega
  · obtain ⟨hxd, hle⟩ := hall x hx
    have hle : x.id.val ≤ e.id.val := hle
    rw [Hop.entry, clockwise_of_lt (Nat.lt_of_lt_of_le hxd hle) e.id.isLt, clockwise_of_lt hxd hxr]
    omega

end RingOverlay.FingerTable
