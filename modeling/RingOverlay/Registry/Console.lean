import RingOverlay.Console.Command
import RingOverlay.Console.Lines
import RingOverlay.Registry.Commands

/-!
# Registry — the console

The console shows its usage, then carries out the commands of its input line by line and prints
their outcomes.  Empty lines are passed over, a line that is no command is answered with the error
and the usage, and a line that is not UTF-8 ends the console.
-/

namespace RingOverlay.Registry

/-- The commands there are. -/
def usage : String :=
  "Please enter a command for the registry to execute (list-messaging-nodes, setup-overlay " ++
    "[number-of-routing-table-entries], list-routing-tables, start <number-of-messages>, " ++
    "CTRL-D to exit)"

/-- Carries out a command, and says its outcome. -/
def execute (r : Registry) : RegistryCommand → Registry × String
  | .listMessagingNodes => (r, r.listNodes)
  | .listRoutingTables => (r, r.listTables)
  | .setupOverlay size =>
    match r.setup size with
    | (r', .ok nodes) => (r', s!"Sent routing tables to {nodes} nodes")
    | (r', .error e) => (r', e.message)
  | .start count =>
    match r.start count with
    | (r', .ok nodes) => (r', s!"Told {nodes} nodes to send {count.toNat} packets each")
    | (r', .error e) => (r', e.message)

/-- Carries out one line of the console. -/
def consoleLine (r : Registry) (line : String) : Registry :=
  match RegistryCommand.parse line with
  | .ok command =>
    let (r', outcome) := r.execute command
    r'.emit (.printed outcome)
  | .error .empty => r
  | .error e => r.emit (.printed (e.message ++ "\n" ++ usage))

/-- Carries out lines until they end, or until one is not UTF-8; says whether all were. -/
def consoleLines : List (List UInt8) → Registry → Registry × Bool
  | [], r => (r, true)
  | line :: lines, r =>
    match Console.lineText? line with
    | some s => consoleLines lines (r.consoleLine s)
    | none => (r, false)

/-- Runs the console over its input; says whether the input was UTF-8. -/
def console (r : Registry) (input : List UInt8) : Registry × Bool :=
  consoleLines (Console.rawLines input) (r.emit (.printed usage))

end RingOverlay.Registry
