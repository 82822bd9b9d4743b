import Mathlib.Data.List.DropRight
import RingOverlay.Proofs.Registry.Stage

/-!
# Registry — what has happened since

A run of the registry as the list of its steps, oldest first.  A *mark* is a step that some test
picks out, such as a setup that succeeded: `last? p h` is the last mark, and `since p h` are the
steps after it, or all of them if there is none.

`setupReports h` are the statuses that have come in since the last setup, and `finishes h` the
connections over which nodes have reported that they finished since the last start.
-/

namespace RingOverlay.Registry

/-- One step of a run. -/
structure Step where
  before : Registry
  action : Action

namespace Step

/-- The registry after the step. -/
def after (s : Step) : Registry := s.before.act s.action

/-- Whether an overlay is set up in this step. -/
def setsUp (s : Step) : Bool := s.before.setsUp s.action

/-- Whether a run is started in this step. -/
def starts (s : Step) : Bool := s.before.starts s.action

/-- The setup status that comes in with this step. -/
def report? (s : Step) : Option SetupReport := s.before.report? s.action

/-- The connection over which a node reports in this step that it has finished. -/
def finish? (s : Step) : Option LinkId := s.before.finish? s.action

/-- The participants whose task is queued when a run is started in this step. -/
def told (s : Step) : List PeerAddress :=
  match s.action with
  | .start count => s.before.told (.taskInitiate count)
  | _ => []

end Step

/-- The steps of a run. -/
def history (r : Registry) : List Action → List Step
  | [] => []
  | a :: as => ⟨r, a⟩ :: (r.act a).history as

/-- The steps since the last that `p` picks out. -/
def since (p : Step → Bool) (h : List Step) : List Step := h.rtakeWhile fun s => !p s

/-- The last step that `p` picks out. -/
def last? (p : Step → Bool) (h : List Step) : Option Step := h.reverse.find? p

/-- The setup statuses that have come in since the last setup. -/
def setupReports (h : List Step) : List SetupReport :=
  (since Step.setsUp h).filterMap Step.report?

/-- The connections over which a node has reported that it finished since the last start, once for
every report. -/
def finishes (h : List Step) : List LinkId := (since Step.starts h).filterMap Step.finish?

/-! ### One more step -/

theorem run_concat (r : Registry) (as : List Action) (a : Action) :
    r.run (as ++ [a]) = (r.run as).act a := by
  rw [run, List.foldl_append]
  rfl

theorem history_concat (r : Registry) (as : List Action) (a : Action) :
    r.history (as ++ [a]) = r.history as ++ [⟨r.run as, a⟩] := by
  induction as generalizing r with
  | nil => rfl
  | cons b as ih => exact congrArg (⟨r, b⟩ :: ·) (ih (r.act b))

variable {p : Step → Bool} {h : List Step} {s : Step}

theorem last?_concat_mark (hs : p s = true) : last? p (h ++ [s]) = some s := by
  rw [last?, List.reverse_append]
  exact List.find?_cons_of_pos hs

theorem last?_concat (hs : p s = false) : last? p (h ++ [s]) = last? p h := by
  rw [last?, List.reverse_append]
  exact List.find?_cons_of_neg (by simp [hs])

theorem since_concat_mark (hs : p s = true) : since p (h ++ [s]) = [] :=
  List.rtakeWhile_concat_neg _ _ _ (by simp [hs])

theorem since_concat (hs : p s = false) : since p (h ++ [s]) = since p h ++ [s] :=
  List.rtakeWhile_concat_pos _ _ _ (by simp [hs])

theorem setupReports_mark (hs : s.setsUp = true) : setupReports (h ++ [s]) = [] := by
  rw [setupReports, since_concat_mark hs, List.filterMap_nil]

theorem setupReports_concat (hs : s.setsUp = false) :
    setupReports (h ++ [s]) = setupReports h ++ s.report?.toList := by
  rw [setupReports, since_concat hs, List.filterMap_append, ← setupReports]
  cases hr : s.report? with
  | none => rw [List.filterMap_cons_none hr]; rfl
  | some x => rw [List.filterMap_cons_some hr]; rfl

theorem finishes_mark (hs : s.starts = true) : finishes (h ++ [s]) = [] := by
  rw [finishes, since_concat_mark hs, List.filterMap_nil]

theorem finishes_concat (hs : s.starts = false) :
    finishes (h ++ [s]) = finishes h ++ s.finish?.toList := by
  rw [finishes, since_concat hs, List.filterMap_append, ← finishes]
  cases hf : s.finish? with
  | none => rw [List.filterMap_cons_none hf]; rfl
  | some x => rw [List.filterMap_cons_some hf]; rfl

end RingOverlay.Registry
