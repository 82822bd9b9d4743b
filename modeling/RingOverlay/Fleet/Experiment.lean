import RingOverlay.Fleet.State

/-!
# Fleet — experiments

An experiment lets every step of a fleet come to rest before the next one: after a setup every node
has reported, and in a run every packet has arrived before the summaries are asked for.
-/

namespace RingOverlay

/-- A fleet in an experiment, and the numbers of the nodes that have left it. -/
structure Experiment where
  fleet : Fleet
  left : List Nat

namespace Experiment

/-- How many deliveries a step needs at most if every node originates `count` packets: a packet
takes at most one hop per node. -/
def patience (nodes count : Nat) : Nat := (count + 4) * (nodes + 2) * (nodes + 2)

/-- Lets everything in flight arrive. -/
def rest (f : Fleet) (draws : Draws) (count : Nat) : Fleet :=
  f.settle draws (patience f.nodes.length count)

/-- The address at which the `k`-th node of an experiment listens. -/
def nodeAddress (k : Nat) : PeerAddress := ⟨"127.0.0.1", UInt16.ofNat (7001 + k)⟩

/-- `nodes` nodes join one after another. -/
def joinAll : (nodes : Nat) → Fleet → Fleet
  | 0, f => f
  | nodes + 1, f =>
    let address := nodeAddress f.nodes.length
    joinAll nodes (rest (f.join false address ⟨.loopback, address.text⟩) (.ofList []) 0)

/-- The experiment with `nodes` nodes, whose identifiers are drawn from `draws`. -/
def opened (nodes capacity : Nat) (draws : Draws) : Experiment :=
  let config : RegistryConfig := { ringSize := capacity, output := false }
  ⟨joinAll nodes (.opened config draws), []⟩

/-! ### Steps -/

/-- Sets up an overlay, and waits for every node to report. -/
def setup (x : Experiment) (size : Nat) : Experiment × Except CommandError (Nat × String) :=
  let (f, outcome) := x.fleet.command (·.setup (some size))
  let f := rest f (.ofList []) 0
  ({ x with fleet := f }, outcome.map fun nodes => (nodes, f.registry.listTables))

/-- Has every node originate `count` packets, each from its own copy of `draws`, and waits for the
report. -/
def run (x : Experiment) (count : UInt32) (draws : Draws) :
    Experiment × Except CommandError (Nat × Option Report) :=
  let (f, outcome) := { x.fleet with reports := [] }.command (·.start count)
  let f := rest f draws count.toNat
  let f := rest (f.elapse f.registry.config.quiescence) draws 0
  ({ x with fleet := f }, outcome.map fun nodes => (nodes, f.reports.head?))

/-- A node leaves; gives the state it is in then. -/
def exit (x : Experiment) (k : Nat) : Experiment × Except ExitError (Option NodeState) :=
  let (f, outcome) := x.fleet.exit k
  let f := rest f (.ofList []) 0
  let left := if outcome.toOption.isSome then k :: x.left else x.left
  (⟨f, left⟩, outcome.map fun _ => f.nodes[k]?.map Node.state)

/-- The state of each node, none for those that have left. -/
def states (x : Experiment) : List (Option NodeState) :=
  x.fleet.nodes.zipIdx.map fun (n, k) => if x.left.contains k then none else some n.state

/-- One line per registered node, in the order of identifiers. -/
def listed (x : Experiment) : String :=
  let m := x.fleet.registry.membership
  if m.members = [] then x.fleet.registry.listNodes
  else Text.unlines (m.members.map fun e => e.id.text ++ ", " ++ e.address.text)

end Experiment

end RingOverlay
