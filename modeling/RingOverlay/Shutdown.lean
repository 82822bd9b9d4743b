/-!
# Shutdown — linked signals

A shutdown signal is held by handles.  A handle that is cloned from another is linked to it: what
one of them shuts down is shut down for all.  The signal is a level, not a pulse: whoever starts to
wait after the shutdown still sees it, so waiting is over exactly when the signal has been given.
-/

namespace RingOverlay

/-- Handles, each holding the number of its signal, and the signals given. -/
structure Shutdowns where
  handles : List Nat
  given : List Nat
  deriving DecidableEq, Repr

namespace Shutdowns

/-- One handle of a signal that has not been given. -/
def initial : Shutdowns := ⟨[0], []⟩

/-- The number of a signal that no handle holds. -/
def fresh (s : Shutdowns) : Nat := s.handles.foldl max 0 + 1

/-- One more handle, of a signal of its own. -/
def add (s : Shutdowns) : Shutdowns := { s with handles := s.handles ++ [s.fresh] }

/-- One more handle, linked to `handle`. -/
def clone (s : Shutdowns) (handle : Nat) : Shutdowns :=
  { s with handles := s.handles ++ s.handles[handle]?.toList }

/-- Gives the signal of `handle`. -/
def shutDown (s : Shutdowns) (handle : Nat) : Shutdowns :=
  { s with given := s.handles[handle]?.toList ++ s.given }

/-- Whether the signal of `handle` has been given. -/
def isShutDown (s : Shutdowns) (handle : Nat) : Bool :=
  match s.handles[handle]? with
  | some signal => s.given.contains signal
  | none => false

/-- For each handle, whether its signal has been given. -/
def states (s : Shutdowns) : List Bool := (List.range s.handles.length).map s.isShutDown

end Shutdowns

end RingOverlay
