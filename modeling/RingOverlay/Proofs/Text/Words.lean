import RingOverlay.Text.Blank

/-!
# Text — words

The words of a text are its maximal runs of characters that are not blank.  `Runs s ws` says so
without splitting anything: it reads a text from the left, blank by blank and run by run.  Every text
has one list of runs, and that is what its words are (`runs_iff`).
-/

namespace RingOverlay.Text

/-- `ws` are the maximal runs of characters in `s` that are not blank, in order. -/
inductive Runs : List Char → List (List Char) → Prop where
  | nil : Runs [] []
  | blank {c s ws} (hc : isBlank c = true) (h : Runs s ws) : Runs (c :: s) ws
  | last {w} (hne : w ≠ []) (hw : ∀ x ∈ w, isBlank x = false) : Runs w [w]
  | next {w c s ws} (hne : w ≠ []) (hw : ∀ x ∈ w, isBlank x = false) (hc : isBlank c = true)
      (h : Runs s ws) : Runs (w ++ c :: s) (w :: ws)

variable {w s : List Char} {c : Char} {ws : List (List Char)}

/-- No word goes beyond a blank. -/
theorem words_append_blank (hc : isBlank c = true) (s t : List Char) :
    words (s ++ c :: t) = words s ++ words t := by
  unfold words
  rw [List.splitOnP_append_cons s t hc, List.filter_append]

theorem words_cons_blank (hc : isBlank c = true) (s : List Char) : words (c :: s) = words s :=
  words_append_blank hc [] s

/-- A run is one word. -/
theorem words_run (hne : w ≠ []) (hw : ∀ x ∈ w, isBlank x = false) : words w = [w] := by
  unfold words
  rw [List.splitOnP_eq_singleton hw]
  simp [hne]

theorem Runs.words_eq (h : Runs s ws) : words s = ws := by
  induction h with
  | nil => rfl
  | blank hc _ ih => rw [words_cons_blank hc, ih]
  | last hne hw => exact words_run hne hw
  | next hne hw hc _ ih => rw [words_append_blank hc, words_run hne hw, ih, List.singleton_append]

/-- Every text has runs: one more character in front is a blank, or starts a run of its own before a
blank, or belongs to the run that it stands before. -/
theorem exists_runs (s : List Char) : ∃ ws, Runs s ws := by
  induction s with
  | nil => exact ⟨[], .nil⟩
  | cons c s ih =>
    obtain ⟨ws, h⟩ := ih
    cases hc : isBlank c with
    | true => exact ⟨ws, .blank hc h⟩
    | false =>
      have hone : ∀ x ∈ [c], isBlank x = false := List.forall_mem_singleton.mpr hc
      cases h with
      | nil => exact ⟨_, .last (List.cons_ne_nil c []) hone⟩
      | blank hblank h => exact ⟨_, .next (List.cons_ne_nil c []) hone hblank h⟩
      | last hne hw =>
        exact ⟨_, .last (List.cons_ne_nil c _) (List.forall_mem_cons.mpr ⟨hc, hw⟩)⟩
      | next hne hw hblank h =>
        exact ⟨_, .next (List.cons_ne_nil c _) (List.forall_mem_cons.mpr ⟨hc, hw⟩) hblank h⟩

/-- **The words of a text are its runs.** -/
theorem runs_iff : Runs s ws ↔ words s = ws := by
  refine ⟨Runs.words_eq, ?_⟩
  rintro rfl
  obtain ⟨ws, h⟩ := exists_runs s
  rwa [h.words_eq]

end RingOverlay.Text
