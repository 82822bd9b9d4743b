/-!
# Log — records

What a process logs is a record: a level, the concern it belongs to, and named fields.
-/

namespace RingOverlay.Log

/-- How important a record is. -/
inductive Level where
  | debug
  | info
  | warn
  deriving DecidableEq, Repr

/-- The name of a level. -/
def Level.name : Level → String
  | debug => "DEBUG"
  | info => "INFO"
  | warn => "WARN"

/-- The concern a record belongs to. -/
inductive Target where
  | registry
  | node
  | packet
  | connection
  deriving DecidableEq, Repr

/-- The name of a target. -/
def Target.name : Target → String
  | registry => "REGISTRY"
  | node => "NODE"
  | packet => "PACKET"
  | connection => "CONNECTION"

/-- The value of a field. -/
inductive Value where
  | text (s : String)
  | number (n : Int)
  | flag (b : Bool)
  deriving DecidableEq, Repr

/-- A log record. -/
structure Record where
  level : Level
  target : Target
  fields : List (String × Value)
  deriving DecidableEq, Repr

/-- The field that holds an identifier; an absent identifier has no field. -/
def idField? (name : String) : Option Nat → List (String × Value)
  | some id => [(name, .number id)]
  | none => []

end RingOverlay.Log
