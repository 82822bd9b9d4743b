import Mathlib.Algebra.Ring.Nat
import Mathlib.Data.List.DropRight
import RingOverlay.Proofs.Text.Numerals
import RingOverlay.Text.Column

/-!
# Text — columns read back

A line of columns is made of cells that are padded to one width, with a blank between two of them.
Padding never cuts, so a line is as wide as its columns only if every cell fits (`Fits`).  Then each
column stands at its own offset (`take_drop_intercalate`), and what is left of it without its padding
is the cell (`rdropWhile_padRight`).

A number fits if its column is as wide as it has digits (`fits_nat`), and an integer if there is one
more place for its sign (`fits_int`).
-/

namespace RingOverlay.Text

/-- A cell that a column of this width holds: it is no wider and of one line, and its padding can be
told from it. -/
structure Fits (width : Nat) (cell : String) : Prop where
  length_le : cell.length ≤ width
  lineFeed_notMem : '\n' ∉ cell.toList
  getLast?_ne : cell.toList.getLast? ≠ some ' '

/-- What stands in the `k`-th column of a line, without its padding. -/
def column (width : Nat) (line : List Char) (k : Nat) : String :=
  String.ofList (((line.drop ((width + 1) * k)).take width).rdropWhile (· = ' '))

/-- What stands in the first `n` columns of a line. -/
def columns (width n : Nat) (line : List Char) : List String :=
  (List.range n).map (column width line)

/-! ### Padding -/

variable {width : Nat} {cell : String}

theorem toList_padRight (width : Nat) (cell : String) :
    (padRight width cell).toList = cell.toList ++ List.replicate (width - cell.length) ' ' := by
  unfold padRight
  rw [String.toList_append, String.toList_ofList]

theorem Fits.length_padRight (h : Fits width cell) : (padRight width cell).toList.length = width := by
  have hle := h.length_le
  rw [toList_padRight, List.length_append, List.length_replicate, String.length_toList]
  omega

theorem Fits.lineFeed_notMem_padRight (h : Fits width cell) :
    '\n' ∉ (padRight width cell).toList := by
  intro hmem
  rw [toList_padRight] at hmem
  rcases List.mem_append.mp hmem with hcell | hpadding
  · exact h.lineFeed_notMem hcell
  · exact absurd (List.eq_of_mem_replicate hpadding) (by decide)

/-- Taking the padding away gives the cell back. -/
theorem Fits.rdropWhile_padRight (h : Fits width cell) :
    (padRight width cell).toList.rdropWhile (· = ' ') = cell.toList := by
  rw [toList_padRight]
  induction width - cell.length with
  | zero =>
    rw [List.replicate_zero, List.append_nil, List.rdropWhile_eq_self_iff]
    intro hne hlast
    refine h.getLast?_ne ?_
    rw [List.getLast?_eq_some_getLast hne, of_decide_eq_true hlast]
  | succ n ih =>
    rw [List.replicate_succ', ← List.append_assoc, List.rdropWhile_concat_pos _ _ _ (by decide), ih]

/-! ### Blocks of one length -/

section Blocks

variable {α : Type} {x : α} {blocks : List (List α)}

theorem length_intercalate (h : ∀ b ∈ blocks, b.length = width) (hne : blocks ≠ []) :
    ([x].intercalate blocks).length + 1 = (width + 1) * blocks.length := by
  induction blocks with
  | nil => exact absurd rfl hne
  | cons b blocks ih =>
    obtain ⟨hb, hblocks⟩ := List.forall_mem_cons.mp h
    rcases eq_or_ne blocks [] with rfl | hrest
    · simp [hb]
    · have hrec := ih hblocks hrest
      rw [List.intercalate_cons_of_ne_nil hrest, List.length_append, List.length_append, hb,
        List.length_singleton, List.length_cons, Nat.mul_succ, ← hrec]
      omega

/-- What comes after the first `k` blocks and their separators are the other blocks. -/
theorem drop_intercalate (h : ∀ b ∈ blocks, b.length = width) {k : Nat} (hk : k < blocks.length) :
    ([x].intercalate blocks).drop ((width + 1) * k) = [x].intercalate (blocks.drop k) := by
  induction k generalizing blocks with
  | zero => simp
  | succ k ih =>
    obtain ⟨b, blocks, rfl⟩ := List.exists_cons_of_length_pos (Nat.zero_lt_of_lt hk)
    obtain ⟨hb, hblocks⟩ := List.forall_mem_cons.mp h
    have hlt : k < blocks.length := Nat.lt_of_succ_lt_succ hk
    have hrest : blocks ≠ [] := List.ne_nil_of_length_pos (Nat.zero_lt_of_lt hlt)
    have hfront : (b ++ [x]).length = width + 1 := by simp [hb]
    rw [List.intercalate_cons_of_ne_nil hrest, Nat.mul_succ, Nat.add_comm, ← List.drop_drop,
      List.drop_left' hfront, ih hblocks hlt, List.drop_succ_cons]

theorem take_drop_intercalate (h : ∀ b ∈ blocks, b.length = width) {k : Nat}
    (hk : k < blocks.length) :
    (([x].intercalate blocks).drop ((width + 1) * k)).take width = blocks[k] := by
  have hwidth : blocks[k].length = width := h _ (List.getElem_mem hk)
  rw [drop_intercalate h hk, List.drop_eq_getElem_cons hk]
  rcases eq_or_ne (blocks.drop (k + 1)) [] with hlast | hmore
  · rw [hlast, List.intercalate_singleton, List.take_of_length_le (Nat.le_of_eq hwidth)]
  · rw [List.intercalate_cons_of_ne_nil hmore, List.append_assoc, List.take_left' hwidth]

/-- Two blocks have one separator between them. -/
theorem getElem?_intercalate (h : ∀ b ∈ blocks, b.length = width) {k : Nat}
    (hk : k + 1 < blocks.length) :
    ([x].intercalate blocks)[(width + 1) * k + width]? = some x := by
  have hlt : k < blocks.length := Nat.lt_of_succ_lt hk
  have hwidth : blocks[k].length = width := h _ (List.getElem_mem hlt)
  have hmore : blocks.drop (k + 1) ≠ [] := fun hnil => by
    have := List.drop_eq_nil_iff.mp hnil
    omega
  rw [← List.getElem?_drop, drop_intercalate h hlt, List.drop_eq_getElem_cons hlt,
    List.intercalate_cons_of_ne_nil hmore, List.append_assoc,
    List.getElem?_append_right (Nat.le_of_eq hwidth), hwidth, Nat.sub_self]
  rfl

theorem notMem_intercalate {y : α} (hy : y ≠ x) (h : ∀ b ∈ blocks, y ∉ b) :
    y ∉ [x].intercalate blocks := by
  induction blocks with
  | nil => exact List.not_mem_nil
  | cons b blocks ih =>
    obtain ⟨hb, hblocks⟩ := List.forall_mem_cons.mp h
    rcases eq_or_ne blocks [] with rfl | hrest
    · rwa [List.intercalate_singleton]
    · rw [List.intercalate_cons_of_ne_nil hrest]
      simp [hb, hy, ih hblocks]

end Blocks

/-! ### Numbers -/

/-- A number fits behind its label if the label leaves a place for each of its digits. -/
theorem fits_labelled (label : String) (digits : Nat) {n : Nat} (hlabel : '\n' ∉ label.toList)
    (hpos : 0 < digits) (hn : n < 10 ^ digits) (hwidth : label.length + digits ≤ width) :
    Fits width (label ++ toString n) where
  length_le := by
    have hshort : (toString n).length ≤ digits := (Nat.length_repr_le_iff hpos).mpr hn
    rw [String.length_append]
    omega
  lineFeed_notMem hmem := by
    rw [String.toList_append, toList_toString] at hmem
    rcases List.mem_append.mp hmem with h | h
    · exact hlabel h
    · exact notMem_decimal (by decide) n h
  getLast?_ne hlast := by
    have hne : decimal n ≠ [] := Nat.toDigits_ne_nil
    rw [String.toList_append, toList_toString, List.getLast?_append_of_ne_nil _ hne] at hlast
    exact notMem_decimal (by decide) n (List.mem_of_getLast? hlast)

theorem fits_nat (digits : Nat) {n : Nat} (hpos : 0 < digits) (hn : n < 10 ^ digits)
    (hwidth : digits ≤ width) : Fits width (toString n) := by
  have hfits := fits_labelled "" digits (by decide) hpos hn ((Nat.zero_add digits).symm ▸ hwidth)
  rwa [String.empty_append] at hfits

/-- An integer takes one more place, for its sign. -/
theorem fits_int (digits : Nat) {i : Int} (hpos : 0 < digits) (hi : i.natAbs < 10 ^ digits)
    (hwidth : digits + 1 ≤ width) : Fits width (toString i) := by
  rcases toString_int i with ⟨-, htext⟩ | ⟨-, htext⟩
  · rw [htext]
    exact fits_nat digits hpos hi (Nat.le_of_succ_le hwidth)
  · rw [htext]
    exact fits_labelled "-" digits (by decide) hpos hi (Nat.add_comm 1 digits ▸ hwidth)

end RingOverlay.Text
