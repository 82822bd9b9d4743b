import RingOverlay.Text.Blank
import RingOverlay.Text.Decimal
import RingOverlay.Text.Quoted

/-!
# Console — command lines

A command line is a list of words.  The registry knows four commands, two of which take a number;
a node knows two, which take none.  For the registry the number of words is looked at after the
command where the command decides how many there may be, and a third word is always too many; a node
refuses a second word whatever the first is.
-/

namespace RingOverlay

/-- A command to the registry. -/
inductive RegistryCommand where
  | listMessagingNodes
  | listRoutingTables
  /-- Sets an overlay up with tables of a size, or of the configured one. -/
  | setupOverlay (size : Option Nat)
  | start (count : UInt32)
  deriving DecidableEq, Repr

/-- A command to a node. -/
inductive NodeCommand where
  | printCountersAndDiagnostics
  | exitOverlay
  deriving DecidableEq, Repr

/-- Why a line is no command. -/
inductive LineError where
  | empty
  | unknown (command : String)
  | missingArgument (command : String)
  | invalidArgument (command value : String)
  | tooManyArguments (command : String)
  deriving DecidableEq, Repr

namespace LineError

/-- The error in words. -/
def message : LineError → String
  | empty => "No command given"
  | unknown command => s!"Unknown command {Text.quoted command}"
  | missingArgument command => s!"{command} needs an argument"
  | invalidArgument command value =>
    s!"{command} expects a non-negative number, not {Text.quoted value}"
  | tooManyArguments command => s!"Too many arguments for {command}"

end LineError

namespace Console

/-- The words of a line, as texts. -/
def wordsOf (line : String) : List String := (Text.words line.toList).map String.ofList

/-- The number that an argument denotes, below a bound. -/
def argument (bound : Nat) (command value : String) : Except LineError Nat :=
  match Text.numeral? bound value.toList with
  | some n => .ok n
  | none => .error (.invalidArgument command value)

end Console

open Console

/-- A registry command from its first word and its argument, if it has one. -/
def RegistryCommand.ofWords (command : String) (value : Option String) :
    Except LineError RegistryCommand :=
  match command, value with
  | "list-messaging-nodes", none => .ok .listMessagingNodes
  | "list-routing-tables", none => .ok .listRoutingTables
  | "setup-overlay", none => .ok (.setupOverlay none)
  | "setup-overlay", some v => (argument UInt64.size command v).map fun n => .setupOverlay (some n)
  | "start", some v => (argument UInt32.size command v).map fun n => .start (UInt32.ofNat n)
  | "start", none => .error (.missingArgument command)
  | "list-messaging-nodes", some _ => .error (.tooManyArguments command)
  | "list-routing-tables", some _ => .error (.tooManyArguments command)
  | _, _ => .error (.unknown command)

/-- The registry command that a line gives. -/
def RegistryCommand.parse (line : String) : Except LineError RegistryCommand :=
  match wordsOf line with
  | [] => .error .empty
  | [command] => ofWords command none
  | [command, value] => ofWords command (some value)
  | command :: _ => .error (.tooManyArguments command)

/-- The node command that a line gives. -/
def NodeCommand.parse (line : String) : Except LineError NodeCommand :=
  match wordsOf line with
  | [] => .error .empty
  | ["print-counters-and-diagnostics"] => .ok .printCountersAndDiagnostics
  | ["exit-overlay"] => .ok .exitOverlay
  | [command] => .error (.unknown command)
  | command :: _ => .error (.tooManyArguments command)

end RingOverlay
