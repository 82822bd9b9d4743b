import RingOverlay.Proofs.Text.Columns
import RingOverlay.Traffic.Report

/-!
# Traffic — the table of a report

Every cell of the table fits its column (`fits_cells`).  It is tight: the smallest sum of payloads and
the largest total of packets are as wide as a column.

* `columns_line`: so every line is aligned, and gives its cells back.
* `table_lossless`: **the table has a line for the heading, for each row and for the totals, all of
  one width, and its columns read back as the fields of the report.**  So no two reports share one.
-/

namespace RingOverlay.Report

/-- The lines of the table. -/
def lines (r : Report) : List (List Char) := r.text.toList.splitOn '\n'

variable {row : List String}

/-! ### Every cell fits -/

theorem fits_count {n : Nat} (h : n < 2 ^ 64) : Text.Fits columnWidth (toString n) :=
  Text.fits_nat 20 (by decide) (by omega) (Nat.le_refl 20)

theorem fits_sum (i : Int64) : Text.Fits columnWidth (toString i.toInt) := by
  have hle := i.le_toInt
  have hlt := i.toInt_lt
  exact Text.fits_int 19 (by decide) (by omega) (Nat.le_refl 20)

theorem fits_node (id : NodeId) : Text.Fits columnWidth ("Node " ++ id.text) := by
  have hlt : id.val < 128 := id.isLt
  exact Text.fits_labelled "Node " 3 (by decide) (by decide) (by omega) (by decide)

theorem fits_headings : ∀ cell ∈ headings, Text.Fits columnWidth cell := by
  have hall : ∀ cell ∈ headings, cell.length ≤ columnWidth ∧ '\n' ∉ cell.toList ∧
      cell.toList.getLast? ≠ some ' ' := by decide
  intro cell hcell
  obtain ⟨hlength, hlineFeed, hlast⟩ := hall cell hcell
  exact ⟨hlength, hlineFeed, hlast⟩

theorem fits_rowCells (s : Summary) : ∀ cell ∈ rowCells s, Text.Fits columnWidth cell := by
  have hcount (n : UInt32) : Text.Fits columnWidth (toString n.toNat) :=
    fits_count (Nat.lt_trans n.toNat_lt (by decide))
  simp only [rowCells, List.forall_mem_cons]
  exact ⟨fits_node s.id, hcount s.sent, hcount s.received, hcount s.relayed, fits_sum s.sentSum,
    fits_sum s.receivedSum, List.forall_mem_nil _⟩

theorem fits_totalCells (t : Totals) : ∀ cell ∈ totalCells t, Text.Fits columnWidth cell := by
  have hsum : Text.Fits columnWidth "Sum" := ⟨by decide, by decide, by decide⟩
  simp only [totalCells, List.forall_mem_cons]
  exact ⟨hsum, fits_count t.sent.toNat_lt, fits_count t.received.toNat_lt,
    fits_count t.relayed.toNat_lt, fits_sum t.sentSum, fits_sum t.receivedSum,
    List.forall_mem_nil _⟩

theorem fits_cells (r : Report) :
    ∀ row ∈ r.cells, row.length = 6 ∧ ∀ cell ∈ row, Text.Fits columnWidth cell := by
  intro row hrow
  rcases List.mem_cons.mp hrow with rfl | hrow
  · exact ⟨rfl, fits_headings⟩
  · rcases List.mem_append.mp hrow with hrow | hrow
    · obtain ⟨s, -, rfl⟩ := List.mem_map.mp hrow
      exact ⟨rfl, fits_rowCells s⟩
    · obtain rfl := List.mem_singleton.mp hrow
      exact ⟨rfl, fits_totalCells r.totals⟩

/-! ### A line -/

/-- The cells of a line, as wide as their columns. -/
def blocks (row : List String) : List (List Char) :=
  row.map fun cell => (Text.padRight columnWidth cell).toList

theorem toList_line (row : List String) : (line row).toList = [' '].intercalate (blocks row) := by
  unfold line blocks
  rw [String.toList_intercalate, List.map_map]
  rfl

theorem length_of_mem_blocks (h : ∀ cell ∈ row, Text.Fits columnWidth cell) :
    ∀ b ∈ blocks row, b.length = columnWidth := by
  intro b hb
  obtain ⟨cell, hcell, rfl⟩ := List.mem_map.mp hb
  exact (h cell hcell).length_padRight

theorem length_blocks (row : List String) : (blocks row).length = row.length := List.length_map _

/-- **A line gives its cells back.** -/
theorem columns_line (h : ∀ cell ∈ row, Text.Fits columnWidth cell) :
    Text.columns columnWidth row.length (line row).toList = row := by
  refine List.ext_getElem (by simp [Text.columns]) fun k hk hk' => ?_
  have hcell := h row[k] (List.getElem_mem hk')
  simp only [Text.columns, Text.column, List.getElem_map, List.getElem_range]
  rw [toList_line, Text.take_drop_intercalate (length_of_mem_blocks h)
    ((length_blocks row).symm ▸ hk')]
  simp only [blocks, List.getElem_map]
  rw [hcell.rdropWhile_padRight, String.ofList_toList]

theorem length_line (h : ∀ cell ∈ row, Text.Fits columnWidth cell) (hrow : row.length = 6) :
    (line row).toList.length = 125 := by
  have hne : blocks row ≠ [] := List.ne_nil_of_length_pos (by rw [length_blocks]; omega)
  have hlength := Text.length_intercalate (x := ' ') (length_of_mem_blocks h) hne
  rw [length_blocks, hrow, ← toList_line] at hlength
  exact Nat.succ.inj hlength

theorem blank_line (h : ∀ cell ∈ row, Text.Fits columnWidth cell) {k : Nat}
    (hk : k + 1 < row.length) :
    (line row).toList[(columnWidth + 1) * k + columnWidth]? = some ' ' := by
  rw [toList_line]
  exact Text.getElem?_intercalate (length_of_mem_blocks h) ((length_blocks row).symm ▸ hk)

theorem lineFeed_notMem_line (h : ∀ cell ∈ row, Text.Fits columnWidth cell) :
    '\n' ∉ (line row).toList := by
  rw [toList_line]
  refine Text.notMem_intercalate (by decide) fun b hb => ?_
  obtain ⟨cell, hcell, rfl⟩ := List.mem_map.mp hb
  exact (h cell hcell).lineFeed_notMem_padRight

/-! ### The table -/

theorem lines_eq (r : Report) : r.lines = r.cells.map fun row => (line row).toList := by
  have hlineFeed : ∀ l ∈ r.cells.map fun row => (line row).toList, '\n' ∉ l := by
    intro l hl
    obtain ⟨row, hrow, rfl⟩ := List.mem_map.mp hl
    exact lineFeed_notMem_line (fits_cells r row hrow).2
  unfold lines text Text.stack
  rw [String.toList_intercalate, List.map_map]
  exact List.splitOn_intercalate '\n' hlineFeed (by simp [cells])

/-- The cells of a table are read back from its lines. -/
theorem columns_lines (r : Report) : r.lines.map (Text.columns columnWidth 6) = r.cells := by
  rw [lines_eq, List.map_map]
  conv_rhs => rw [← List.map_id r.cells]
  refine List.map_congr_left fun row hrow => ?_
  obtain ⟨hlength, hfits⟩ := fits_cells r row hrow
  have hread := columns_line hfits
  rwa [hlength] at hread

theorem rowCells_injective : Function.Injective rowCells := by
  intro s t h
  simp only [rowCells, List.cons.injEq, String.append_right_inj] at h
  obtain ⟨hid, hsent, hreceived, hrelayed, hsentSum, hreceivedSum, -⟩ := h
  obtain ⟨id, sent, relayed, sentSum, received, receivedSum⟩ := s
  obtain rfl := Fin.ext (Text.toString_nat_injective hid)
  obtain rfl := UInt32.toNat_inj.mp (Text.toString_nat_injective hsent)
  obtain rfl := UInt32.toNat_inj.mp (Text.toString_nat_injective hreceived)
  obtain rfl := UInt32.toNat_inj.mp (Text.toString_nat_injective hrelayed)
  obtain rfl := Int64.toInt_inj.mp (Text.toString_int_injective hsentSum)
  obtain rfl := Int64.toInt_inj.mp (Text.toString_int_injective hreceivedSum)
  rfl

theorem totalCells_injective : Function.Injective totalCells := by
  intro t u h
  simp only [totalCells, List.cons.injEq] at h
  obtain ⟨-, hsent, hreceived, hrelayed, hsentSum, hreceivedSum, -⟩ := h
  obtain ⟨sent, received, relayed, sentSum, receivedSum⟩ := t
  obtain rfl := UInt64.toNat_inj.mp (Text.toString_nat_injective hsent)
  obtain rfl := UInt64.toNat_inj.mp (Text.toString_nat_injective hreceived)
  obtain rfl := UInt64.toNat_inj.mp (Text.toString_nat_injective hrelayed)
  obtain rfl := Int64.toInt_inj.mp (Text.toString_int_injective hsentSum)
  obtain rfl := Int64.toInt_inj.mp (Text.toString_int_injective hreceivedSum)
  rfl

theorem cells_injective : Function.Injective cells := by
  intro r r' h
  obtain ⟨hrows, htotals⟩ := List.append_inj' (List.cons.inj h).2 rfl
  obtain ⟨rows, totals⟩ := r
  obtain ⟨rows', totals'⟩ := r'
  obtain rfl : rows = rows' := rowCells_injective.list_map hrows
  obtain rfl : totals = totals' := totalCells_injective (List.singleton_inj.mp htotals)
  rfl

/-- **Reports of one table are one.** -/
theorem text_injective : Function.Injective text := by
  intro r r' h
  refine cells_injective ?_
  rw [← columns_lines, ← columns_lines, lines, h, ← lines]

/-- **The table is aligned and loses nothing.**  It has a line for the heading, one for each row and
one for the totals, each of 125 characters: six columns of 20, with a blank between two.  Each column,
read at its offset and without its padding, is the decimal text of a field.  So the text determines
the report. -/
theorem table_lossless (r : Report) :
    r.lines.length = r.rows.length + 2 ∧
    (∀ l ∈ r.lines, l.length = 125 ∧ ∀ k < 5, l[21 * k + 20]? = some ' ') ∧
    r.lines.map (Text.columns 20 6) =
      headings ::
      r.rows.map (fun s => ["Node " ++ toString s.id.val, toString s.sent.toNat,
        toString s.received.toNat, toString s.relayed.toNat, toString s.sentSum.toInt,
        toString s.receivedSum.toInt]) ++
      [["Sum", toString r.totals.sent.toNat, toString r.totals.received.toNat,
        toString r.totals.relayed.toNat, toString r.totals.sentSum.toInt,
        toString r.totals.receivedSum.toInt]] ∧
    ∀ r' : Report, r'.text = r.text ↔ r' = r := by
  refine ⟨?_, ?_, columns_lines r, fun r' => text_injective.eq_iff⟩
  · rw [lines_eq, List.length_map]
    simp [cells]
  · intro l hl
    rw [lines_eq] at hl
    obtain ⟨row, hrow, rfl⟩ := List.mem_map.mp hl
    obtain ⟨hlength, hfits⟩ := fits_cells r row hrow
    exact ⟨length_line hfits hlength, fun k hk => blank_line hfits (by omega)⟩

/-- A report whose fields are as wide as they can be. -/
def widest : Report where
  rows := [⟨127, UInt32.ofNat 4294967295, 0, Int64.minValue, 1000000000, Int64.maxValue⟩]
  totals := ⟨UInt64.ofNat 18446744073709551615, 0, 0, Int64.minValue, Int64.minValue⟩

/-- The widest fields still stand in their columns, also where they fill them. -/
theorem table_lossless_widest :
    widest.lines.length = 3 ∧ (∀ l ∈ widest.lines, l.length = 125) ∧
    widest.lines.map (Text.columns 20 6) =
      [headings,
        ["Node 127", "4294967295", "1000000000", "0", "-9223372036854775808",
          "9223372036854775807"],
        ["Sum", "18446744073709551615", "0", "0", "-9223372036854775808",
          "-9223372036854775808"]] := by
  obtain ⟨hcount, haligned, hcolumns, -⟩ := table_lossless widest
  exact ⟨hcount, fun l hl => (haligned l hl).1, hcolumns.trans (by decide)⟩

end RingOverlay.Report
