import RingOverlay.Console.Command
import RingOverlay.Console.Lines
import RingOverlay.Node.Handlers

/-!
# Node — the console

The console shows its usage, then carries out the commands of its input line by line.  Leaving the
overlay takes an answer of the registry: the console waits for it, and ends once the node has left.
An answer that nobody waited for arrives after the console has ended.
-/

namespace RingOverlay.Node

/-- The commands there are. -/
def usage : String :=
  "Please enter a command for the node to execute (print-counters-and-diagnostics, " ++
    "exit-overlay, CTRL-D to exit)"

/-- The counters, the state and the fingers of a node, for the operator. -/
def diagnostics (n : Node) : String :=
  let heading :=
    match n.topology.id with
    | some id => s!"Node {id.text} at {n.address.text}"
    | none => s!"Unregistered node at {n.address.text}"
  Text.unlines
    ([heading, "State: " ++ n.state.text, n.counters.text,
      s!"Known nodes: {n.topology.nodeIds.length}", "Routing table:"] ++ n.topology.table.listing)

/-- The registry's answer to a request to leave. -/
structure Answer where
  status : Int32
  info : String
  deriving DecidableEq, Repr

/-- A node at its console, with the answer of the registry that has yet to arrive. -/
structure AtConsole where
  node : Node
  answer : Option Answer

namespace AtConsole

/-- Prints a line. -/
def print (c : AtConsole) (line : String) : AtConsole :=
  { c with node := c.node.emit (.printed line) }

/-- The answer arrives, if there is one. -/
def arrive (c : AtConsole) : AtConsole :=
  match c.answer with
  | some a => ⟨c.node.deregistrationStatus a.status a.info, none⟩
  | none => c

/-- Waits until the node is unregistered, as long as there is an answer to wait for. -/
def await (c : AtConsole) : AtConsole :=
  if c.node.state = .unregistered then c else c.arrive

/-- Carries out one line; says whether the console goes on. -/
def line (c : AtConsole) (s : String) : AtConsole × Bool :=
  match NodeCommand.parse s with
  | .ok .printCountersAndDiagnostics => (c.print c.node.diagnostics, true)
  | .ok .exitOverlay =>
    match c.node.exit with
    | (n, .error e) => ({ c with node := n }.print e.message, true)
    | (n, .ok ()) =>
      let c := { c with node := n }.await
      if c.node.state = .unregistered then (c.print "Left the overlay", false)
      else (c.print "The registry did not confirm the deregistration", true)
  | .error .empty => (c, true)
  | .error e => (c.print (e.message ++ "\n" ++ usage), true)

/-- Carries out lines until they end, until the node has left, or until one is not UTF-8; says
whether all that were read were. -/
def lines : List (List UInt8) → AtConsole → AtConsole × Bool
  | [], c => (c, true)
  | raw :: raws, c =>
    match Console.lineText? raw with
    | none => (c, false)
    | some s =>
      match c.line s with
      | (c, true) => lines raws c
      | (c, false) => (c, true)

end AtConsole

/-- Runs the console over its input; says whether the input was UTF-8. -/
def console (n : Node) (input : List UInt8) (answer : Option Answer) : Node × Bool :=
  let (c, utf8) := AtConsole.lines (Console.rawLines input) ((AtConsole.mk n answer).print usage)
  (c.arrive.node, utf8)

end RingOverlay.Node
