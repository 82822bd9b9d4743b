/-!
# Link — the connections of a process

A process numbers the connections it has ever had, in the order in which they were made, and
remembers which of them have closed, in the order in which they closed.  A connection never opens
again.
-/

namespace RingOverlay

/-- The number of a connection. -/
abbrev LinkId := Nat

/-- What is said of a message that meets a closed connection. -/
def closedMessage : String := "The connection is closed"

/-- The connections of a process: what is at the other end of each, and which have closed. -/
structure Links (α : Type) where
  ends : List α
  closed : List LinkId
  deriving DecidableEq, Repr

namespace Links

variable {α : Type}

/-- A process without connections. -/
def empty : Links α := ⟨[], []⟩

/-- What is at the other end of a connection. -/
def end? (l : Links α) (link : LinkId) : Option α := l.ends[link]?

/-- Whether a connection was made and has not closed. -/
def isOpen (l : Links α) (link : LinkId) : Bool :=
  link < l.ends.length && !l.closed.contains link

/-- The number that the next connection gets. -/
def fresh (l : Links α) : LinkId := l.ends.length

/-- One more connection, to `far`. -/
def connect (l : Links α) (far : α) : Links α := { l with ends := l.ends ++ [far] }

/-- The connection closes, if it is open. -/
def close (l : Links α) (link : LinkId) : Links α :=
  if l.isOpen link then { l with closed := l.closed ++ [link] } else l

end Links

end RingOverlay
