import Mathlib.Data.List.Induction
import Mathlib.Data.List.Nodup
import RingOverlay.Traffic.Report

/-!
# Traffic — what a collector has collected

A collector that starts with nothing holds, for every node that has reported, its last summary
(`mem_collect_iff`), in the order of identifiers (`ascending_collect`).  One more summary adds a row
at most (`size_add_le`).  Of summaries with distinct identifiers it holds every one
(`perm_collect`), and the order in which they came in does not matter (`collect_eq_of_perm`).
-/

namespace RingOverlay

/-- A summary that no later one of the same node has taken the place of. -/
def LastWord (ss : List Summary) (s : Summary) : Prop :=
  ∃ before after, ss = before ++ s :: after ∧ ∀ t ∈ after, t.id ≠ s.id

namespace Collector

/-- What has been collected after the summaries `ss` have come in. -/
def collect (ss : List Summary) : Collector := ss.foldl add empty

theorem collect_concat (ss : List Summary) (s : Summary) :
    collect (ss ++ [s]) = (collect ss).add s := by
  rw [collect, List.foldl_append]
  rfl

variable {s t : Summary} {ts : List Summary}

/-! ### One more summary -/

theorem mem_of_mem_insert (h : t ∈ insert s ts) : t = s ∨ t ∈ ts := by
  induction ts with
  | nil => exact .inl (List.mem_singleton.mp h)
  | cons x ts ih =>
    unfold insert at h
    split at h
    · exact List.mem_cons.mp h
    · split at h
      · exact (List.mem_cons.mp h).imp_right fun ht => .tail _ ht
      · rcases List.mem_cons.mp h with rfl | h
        · exact .inr List.mem_cons_self
        · exact (ih h).imp_right fun ht => .tail _ ht

theorem length_insert_le (s : Summary) (ts : List Summary) :
    (insert s ts).length ≤ ts.length + 1 := by
  induction ts with
  | nil => exact Nat.le_refl 1
  | cons x ts ih =>
    unfold insert
    split
    · exact Nat.le_refl _
    · split
      · exact Nat.le_succ _
      · exact Nat.succ_le_succ ih

theorem size_add_le (c : Collector) (s : Summary) : (c.add s).size ≤ c.size + 1 :=
  length_insert_le s c.summaries

theorem pairwise_insert (h : ts.Pairwise fun x y => x.id < y.id) :
    (insert s ts).Pairwise fun x y => x.id < y.id := by
  induction ts with
  | nil => exact List.pairwise_singleton _ _
  | cons x ts ih =>
    obtain ⟨hx, hts⟩ := List.pairwise_cons.mp h
    unfold insert
    split
    · next hlt =>
      refine List.pairwise_cons.mpr ⟨fun y hy => ?_, h⟩
      rcases List.mem_cons.mp hy with rfl | hy
      · exact hlt
      · exact Fin.lt_trans hlt (hx y hy)
    · split
      · next hsame => exact List.pairwise_cons.mpr ⟨fun y hy => hsame ▸ hx y hy, hts⟩
      · next hnlt hne =>
        refine List.pairwise_cons.mpr ⟨fun y hy => ?_, ih hts⟩
        rcases mem_of_mem_insert hy with rfl | hy
        · have hval : x.id.val ≠ y.id.val := fun hval => hne (Fin.ext hval.symm)
          exact Nat.lt_of_le_of_ne (Fin.not_lt.mp hnlt) hval
        · exact hx y hy

/-- A summary takes the place of those of its own node, and of no others. -/
theorem mem_insert (h : ts.Pairwise fun x y => x.id < y.id) :
    t ∈ insert s ts ↔ t = s ∨ t ∈ ts ∧ t.id ≠ s.id := by
  induction ts with
  | nil => simp [insert]
  | cons x ts ih =>
    obtain ⟨hx, hts⟩ := List.pairwise_cons.mp h
    unfold insert
    split
    · next hlt =>
      have hother : ∀ y ∈ x :: ts, y.id ≠ s.id := fun y hy => by
        rcases List.mem_cons.mp hy with rfl | hy
        · exact (Fin.ne_of_lt hlt).symm
        · exact (Fin.ne_of_lt (Fin.lt_trans hlt (hx y hy))).symm
      rw [List.mem_cons]
      exact or_congr_right ⟨fun ht => ⟨ht, hother t ht⟩, And.left⟩
    · split
      · next hsame =>
        rw [List.mem_cons, List.mem_cons]
        refine or_congr_right ⟨fun ht => ⟨.inr ht, ?_⟩, fun ⟨ht, hne⟩ => ?_⟩
        · exact hsame ▸ (Fin.ne_of_lt (hx t ht)).symm
        · exact ht.resolve_left fun htx => hne (htx ▸ hsame.symm)
      · next hne =>
        rw [List.mem_cons, List.mem_cons, ih hts]
        constructor
        · rintro (rfl | rfl | ⟨ht, hid⟩)
          · exact .inr ⟨.inl rfl, fun hid => hne hid.symm⟩
          · exact .inl rfl
          · exact .inr ⟨.inr ht, hid⟩
        · rintro (rfl | ⟨rfl | ht, hid⟩)
          · exact .inr (.inl rfl)
          · exact .inl rfl
          · exact .inr (.inr ⟨ht, hid⟩)

/-! ### All of them -/

theorem ascending_collect (ss : List Summary) :
    (collect ss).summaries.Pairwise fun x y => x.id < y.id := by
  induction ss using List.reverseRecOn with
  | nil => exact .nil
  | append_singleton ss s ih =>
    rw [collect_concat]
    exact pairwise_insert ih

/-- No node is collected twice. -/
theorem nodup_ids_collect (ss : List Summary) : ((collect ss).summaries.map Summary.id).Nodup :=
  List.pairwise_map.mpr ((ascending_collect ss).imp fun hlt => Fin.ne_of_lt hlt)

/-- **What is collected is the last word of every node.** -/
theorem mem_collect_iff (ss : List Summary) : t ∈ (collect ss).summaries ↔ LastWord ss t := by
  induction ss using List.reverseRecOn with
  | nil => exact ⟨fun h => absurd h List.not_mem_nil, fun ⟨_, _, h, _⟩ => by simp at h⟩
  | append_singleton ss s ih =>
    rw [collect_concat, add, mem_insert (ascending_collect ss), ih]
    constructor
    · rintro (rfl | ⟨⟨before, after, rfl, hlast⟩, hid⟩)
      · exact ⟨ss, [], rfl, fun _ h => absurd h List.not_mem_nil⟩
      · refine ⟨before, after ++ [s], by simp, fun x hx => ?_⟩
        rcases List.mem_append.mp hx with hx | hx
        · exact hlast x hx
        · obtain rfl := List.mem_singleton.mp hx
          exact hid.symm
    · rintro ⟨before, after, hsplit, hlast⟩
      cases after using List.reverseRecOn with
      | nil =>
        obtain ⟨-, rfl⟩ := List.append_singleton_inj.mp hsplit
        exact .inl rfl
      | append_singleton after x =>
        rw [← List.cons_append, ← List.append_assoc] at hsplit
        obtain ⟨rfl, rfl⟩ := List.append_singleton_inj.mp hsplit
        refine .inr ⟨⟨before, after, rfl, fun y hy => hlast y (List.mem_append_left _ hy)⟩, ?_⟩
        exact (hlast s (List.mem_append_right _ (List.mem_singleton_self s))).symm

variable {ss ss' : List Summary}

/-- The last word of a node is the last of the summaries that name it. -/
theorem lastWord_iff_getLast? :
    LastWord ss t ↔ (ss.filter (·.id = t.id)).getLast? = some t := by
  rw [List.getLast?_eq_some_iff]
  constructor
  · rintro ⟨before, after, rfl, hlast⟩
    refine ⟨before.filter (·.id = t.id), ?_⟩
    have hafter : after.filter (·.id = t.id) = [] :=
      List.filter_eq_nil_iff.mpr fun x hx => by simpa using hlast x hx
    rw [List.filter_append, List.filter_cons_of_pos (by simp), hafter]
  · rintro ⟨earlier, hsplit⟩
    obtain ⟨before, rest, rfl, -, hrest⟩ := List.filter_eq_append_iff.mp hsplit
    obtain ⟨skipped, after, rfl, -, -, hafter⟩ := List.filter_eq_cons_iff.mp hrest
    refine ⟨before ++ skipped, after, by simp, fun x hx => ?_⟩
    simpa using List.filter_eq_nil_iff.mp hafter x hx

/-- Every node that has been heard of has a last word. -/
theorem exists_lastWord {id : NodeId} (h : id ∈ ss.map Summary.id) :
    ∃ s, LastWord ss s ∧ s.id = id := by
  obtain ⟨s, hs, rfl⟩ := List.mem_map.mp h
  have hne : ss.filter (·.id = s.id) ≠ [] :=
    List.ne_nil_of_mem (List.mem_filter.mpr ⟨hs, by simp⟩)
  have hmem := List.getLast_mem hne
  have hid : ((ss.filter (·.id = s.id)).getLast hne).id = s.id := by
    simpa using (List.mem_filter.mp hmem).2
  refine ⟨_, lastWord_iff_getLast?.mpr ?_, hid⟩
  rw [hid, List.getLast?_eq_some_getLast hne]

/-- What is collected depends on the last words only. -/
theorem collect_eq_of_lastWord (h : ∀ s, LastWord ss' s ↔ LastWord ss s) :
    collect ss' = collect ss := by
  have hsame : (collect ss').summaries.Perm (collect ss).summaries := by
    refine (List.perm_ext_iff_of_nodup (nodup_ids_collect ss').of_map
      (nodup_ids_collect ss).of_map).mpr fun s => ?_
    rw [mem_collect_iff, mem_collect_iff, h]
  have heq := hsame.eq_of_pairwise (fun _ _ _ _ hlt hgt => absurd hlt (Fin.lt_asymm hgt))
    (ascending_collect ss') (ascending_collect ss)
  exact congrArg Collector.mk heq

/-! ### Distinct identifiers -/

theorem size_collect_le (ss : List Summary) : (collect ss).size ≤ ss.length := by
  induction ss using List.reverseRecOn with
  | nil => exact Nat.le_refl 0
  | append_singleton ss s ih =>
    have hstep := size_add_le (collect ss) s
    rw [collect_concat, List.length_append, List.length_singleton]
    omega

theorem lastWord_iff_mem (h : (ss.map Summary.id).Nodup) : LastWord ss t ↔ t ∈ ss := by
  constructor
  · rintro ⟨before, after, rfl, -⟩
    simp
  · intro ht
    obtain ⟨before, after, rfl⟩ := List.append_of_mem ht
    refine ⟨before, after, rfl, fun x hx hid => ?_⟩
    rw [List.map_append, List.map_cons] at h
    have hcons := (List.nodup_append.mp h).2.1
    exact (List.nodup_cons.mp hcons).1 (hid ▸ List.mem_map_of_mem hx)

/-- What is collected of summaries with distinct identifiers is every one of them. -/
theorem perm_collect (h : (ss.map Summary.id).Nodup) : (collect ss).summaries.Perm ss := by
  refine (List.perm_ext_iff_of_nodup (nodup_ids_collect ss).of_map
    (List.Nodup.of_map _ h)).mpr fun t => ?_
  rw [mem_collect_iff, lastWord_iff_mem h]

theorem size_collect (h : (ss.map Summary.id).Nodup) : (collect ss).size = ss.length :=
  (perm_collect h).length_eq

/-- **The order of summaries does not matter**, as long as none names the node of another. -/
theorem collect_eq_of_perm (h : (ss.map Summary.id).Nodup) (hperm : ss'.Perm ss) :
    collect ss' = collect ss := by
  have h' : (ss'.map Summary.id).Nodup := (hperm.map _).nodup_iff.mpr h
  refine collect_eq_of_lastWord fun s => ?_
  rw [lastWord_iff_mem h', lastWord_iff_mem h]
  exact hperm.mem_iff

end Collector

end RingOverlay
