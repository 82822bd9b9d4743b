import RingOverlay.Proofs.Finger.NextHop
import RingOverlay.Proofs.Finger.Offsets

/-!
# Finger — whose table is whose

Tables are laid out as a list, in the order of the members and labelled with their identifiers.  The
identifiers are distinct, so the list is an *assignment* of tables to members
(`exists_map_of_labels`).  `Assigns members size table` says what holds of it: a member's table has
other members only, under the addresses that they are members with; it is empty if there is no other
member, and only then; and so it has a hop to every one of them (`exists_assigns`).
-/

namespace RingOverlay.Layout

variable {members : List Entry} {size : Nat} {ts : List (NodeId × FingerTable)}
  {table : Entry → FingerTable}

/-- Labels that are distinct tell which table belongs to which member. -/
theorem exists_map_of_labels (hd : (members.map Entry.id).Nodup)
    (hlabels : ts.map Prod.fst = members.map Entry.id) :
    ∃ table : Entry → FingerTable, ts = members.map fun m => (m.id, table m) := by
  induction members generalizing ts with
  | nil => exact ⟨fun _ => .empty, List.map_eq_nil_iff.mp hlabels⟩
  | cons m members ih =>
    obtain ⟨⟨label, t⟩, ts, rfl, rfl, hrest⟩ := List.map_eq_cons_iff.mp hlabels
    obtain ⟨hnew, hd⟩ := List.nodup_cons.mp hd
    obtain ⟨table, rfl⟩ := ih hd hrest
    refine ⟨fun x => if x = m then t else table x, ?_⟩
    simp only [List.map_cons, if_true]
    refine congrArg _ (List.map_congr_left fun x hx => ?_)
    have hne : x ≠ m := fun h => hnew (h ▸ List.mem_map_of_mem hx)
    rw [if_neg hne]

/-- What can be laid out has no more fingers than there are members, and none that clashes. -/
theorem not_clashes_of_tables (hn : 2 ≤ members.length) (h : tables members size = .ok ts) :
    size ≤ members.length ∧ ∀ e < size, ¬ Clashes members.length e := by
  obtain ⟨last, hlt, hf⟩ := exists_firstClash (Nat.lt_of_lt_of_le Nat.two_pos hn)
  have hle : min size members.length ≤ last := by
    by_contra hgt
    rw [tables_eq hn (tables_eq_ok hn h).1, tablesBy_of_lt hf (Nat.not_le.mp hgt)] at h
    cases h
  exact ⟨by omega, fun e he => hf.first e (by omega)⟩

/-- Every member has a table of its own, which is laid out for it over all the members. -/
structure Assigns (members : List Entry) (size : Nat) (table : Entry → FingerTable) : Prop where
  built : tables members size = .ok (members.map fun m => (m.id, table m))
  doubling : 2 ≤ members.length → Doubling members size (members.map fun m => (m.id, table m))
  others : ∀ m ∈ members, ∀ e ∈ (table m).entries, e ∈ members ∧ e.id ≠ m.id
  empty_iff : ∀ m ∈ members, (table m).entries = [] ↔ members.length = 1
  routes : ∀ m ∈ members, ∀ dst ∈ members.map Entry.id, dst ≠ m.id →
    ∃ hop, (table m).nextHop dst = some hop

/-- A finger of a member is at an offset that is not zero, so it is another member. -/
theorem Doubling.others (hd : (members.map Entry.id).Nodup)
    (h : Doubling members size (members.map fun m => (m.id, table m)))
    (hfree : ∀ e < size, ¬ Clashes members.length e) {m e : Entry} (hm : m ∈ members)
    (he : e ∈ (table m).entries) : e ∈ members ∧ e.id ≠ m.id := by
  obtain ⟨i, hi⟩ := List.getElem?_of_mem hm
  have hlt : i < members.length := (List.getElem?_eq_some_iff.mp hi).1
  have htable : (members.map fun m => (m.id, table m))[i]? = some (m.id, table m) := by
    rw [List.getElem?_map, hi, Option.map_some]
  obtain ⟨j, hj⟩ := List.getElem?_of_mem he
  have hsize : j < size := by
    have hlength := (List.getElem?_eq_some_iff.mp hj).1
    have hsizes := h.sizes _ (List.mem_of_getElem? htable)
    exact hsizes ▸ hlength
  have hfinger : members[(i + 2 ^ j) % members.length]? = some e :=
    (h.fingers i _ htable j hsize).symm.trans hj
  refine ⟨List.mem_of_getElem? hfinger, fun hid => hfree j hsize (.inl ?_)⟩
  obtain rfl := List.inj_on_of_nodup_map hd (List.mem_of_getElem? hfinger) hm hid
  have hposition : (i + 2 ^ j) % members.length = i :=
    (List.getElem?_inj (Nat.mod_lt _ (by omega)) (List.Nodup.of_map _ hd)).mp
      (hfinger.trans hi.symm)
  have hmod : 2 ^ j % members.length = 0 % members.length :=
    Nat.ModEq.add_left_cancel' i (hposition.trans (Nat.mod_eq_of_lt hlt).symm)
  rw [hmod, Nat.zero_mod]

/-- A lone member has an empty table, and nobody to reach. -/
theorem assigns_lone {m : Entry}
    (h : tables [m] size = .ok ([m].map fun m => (m.id, table m))) : Assigns [m] size table := by
  have hempty : ∀ x ∈ [m], table x = .empty := by
    intro x hx
    obtain rfl := List.mem_singleton.mp hx
    have hlone := h
    simp only [tables] at hlone
    split at hlone
    · cases hlone
    · simpa using hlone.symm
  refine ⟨h, fun hn => absurd hn (by simp), fun x hx => ?_, fun x hx => ?_,
    fun x hx dst hdst hne => ?_⟩
  · rw [hempty x hx]
    exact fun e he => absurd he List.not_mem_nil
  · rw [hempty x hx]
    exact iff_of_true rfl rfl
  · rw [List.mem_singleton.mp hx] at hne
    exact absurd (List.mem_singleton.mp hdst) hne

/-- Of several members, each has as many fingers as were asked for, which is one at least. -/
theorem assigns_several (hn : 2 ≤ members.length) (hd : (members.map Entry.id).Nodup)
    (h : tables members size = .ok (members.map fun m => (m.id, table m))) :
    Assigns members size table := by
  obtain ⟨hle, hfree⟩ := not_clashes_of_tables hn h
  have hdoubling := doubling_of_tables hn hle h
  have hne : ∀ m ∈ members, (table m).entries ≠ [] := by
    intro m hm hnil
    have hsizes := hdoubling.sizes _ (List.mem_map_of_mem hm)
    rw [FingerTable.size, hnil] at hsizes
    exact (tables_eq_ok hn h).1 hsizes.symm
  refine ⟨h, fun _ => hdoubling, fun m hm e he => hdoubling.others hd hfree hm he, fun m hm => ?_,
    fun m hm dst _ _ => ?_⟩
  · exact iff_of_false (hne m hm) (by omega)
  · exact Option.ne_none_iff_exists'.mp (FingerTable.nextHop_eq_none_iff.not.mpr (hne m hm))

/-- **Every member has its own table**, and through it a way to every other. -/
theorem exists_assigns (hd : (members.map Entry.id).Nodup) (h : tables members size = .ok ts) :
    ∃ table, ts = members.map (fun m => (m.id, table m)) ∧ Assigns members size table := by
  obtain ⟨table, rfl⟩ := exists_map_of_labels hd (tables_ids h)
  refine ⟨table, rfl, ?_⟩
  match members with
  | [] => cases h
  | [m] => exact assigns_lone h
  | m :: m' :: ms => exact assigns_several (Nat.le_add_left 2 ms.length) hd h

/-- A table has no more fingers than there are members. -/
theorem Assigns.length_le (h : Assigns members size table) {m : Entry} (hm : m ∈ members) :
    (table m).entries.length ≤ members.length := by
  have hpos : 0 < members.length := List.length_pos_of_mem hm
  rcases Nat.lt_or_ge members.length 2 with hlone | hn
  · -- a lone member has no finger, however many were asked for
    rw [(h.empty_iff m hm).mpr (by omega)]
    exact Nat.zero_le _
  · have hsize : (table m).entries.length = size :=
      (h.doubling hn).sizes _ (List.mem_map_of_mem hm)
    rw [hsize]
    exact (not_clashes_of_tables hn h.built).1

end RingOverlay.Layout
