import RingOverlay.Node.Handlers
import RingOverlay.Registry.Run

/-!
# Fleet — a registry and its nodes

A fleet is a registry together with nodes that join it, each over a connection of its own.  What a
process queues on a connection becomes a parcel in flight to the process at the other end; a parcel
that is delivered is handled there, and what that queues is in flight next.  A node that lets go of
its registry hangs up, and the registry learns of it after everything the node had queued before.
Nodes are numbered in the order in which they joined, and the registry's connections are numbered
alike.
-/

namespace RingOverlay

/-- What is on its way. -/
inductive Parcel where
  /-- From a node to the registry. -/
  | toRegistry (node : Nat) (message : Message)
  /-- A node has closed its connection to the registry. -/
  | hangUp (node : Nat)
  /-- From the registry to a node. -/
  | toNode (node : Nat) (message : Message)
  /-- From a node to a node it has dialed. -/
  | toPeer (sender receiver : Nat) (message : Message)
  deriving DecidableEq

/-- A registry, the nodes that have joined it, and the messages on their way between them. -/
structure Fleet where
  registry : Registry
  nodes : List Node
  /-- What is in flight, oldest first. -/
  inFlight : List Parcel
  /-- The reports that the registry has published, newest first. -/
  reports : List Report

namespace Fleet

/-- The address at which the registry of a fleet listens. -/
def registryAddress : PeerAddress := ⟨"127.0.0.1", 5000⟩

/-- The number of the node that listens at an address, of several the first. -/
def nodeAt? (f : Fleet) (a : PeerAddress) : Option Nat := f.nodes.findIdx? (·.address == a)

/-- Whether a node of the fleet can dial an address. -/
def reaches (f : Fleet) (a : PeerAddress) : Bool :=
  a == registryAddress || (f.nodeAt? a).isSome

/-- A fleet without nodes. -/
def opened (config : RegistryConfig) (draws : Draws) : Fleet :=
  ⟨Registry.initial config draws, [], [], []⟩

/-! ### Collecting what was queued -/

/-- The parcel that an effect of the registry puts in flight. -/
def parcelOfRegistry? : RegistryEffect → Option Parcel
  | .sent link m => some (.toNode link m)
  | _ => none

/-- The report that an effect of the registry publishes. -/
def reportOf? : RegistryEffect → Option Report
  | .published report => some report
  | _ => none

/-- Puts in flight what the registry has queued, and keeps what it has published. -/
def collectRegistry (f : Fleet) (r : Registry) : Fleet :=
  { f with
    registry := { r with effects := [] }
    inFlight := f.inFlight ++ r.effects.reverse.filterMap parcelOfRegistry?
    reports := r.effects.filterMap reportOf? ++ f.reports }

/-- The parcel that an effect of node `k` puts in flight. -/
def parcelOfNode? (f : Fleet) (k : Nat) (n : Node) : NodeEffect → Option Parcel
  | .sent link m =>
    match n.links.end? link with
    | some (.dialed a) =>
      if a = registryAddress then some (.toRegistry k m)
      else (f.nodeAt? a).map fun j => .toPeer k j m
    | _ => none
  | _ => none

/-- A node's connection to its registry. -/
def registryLink : LinkId := 0

/-- Whether node `k`, as the fleet has it, still holds its connection to the registry. -/
def holdsRegistry (f : Fleet) (k : Nat) : Bool :=
  f.nodes[k]?.any (·.links.isOpen registryLink)

/-- Puts in flight what node `k` has queued, and that it has hung up, if it has. -/
def collectNode (f : Fleet) (k : Nat) (n : Node) : Fleet :=
  let hungUp := f.holdsRegistry k && !n.links.isOpen registryLink
  { f with
    nodes := f.nodes.set k { n with effects := [] }
    inFlight := f.inFlight ++ n.effects.reverse.filterMap (f.parcelOfNode? k n) ++
      if hungUp then [.hangUp k] else [] }

/-! ### Steps -/

/-- One more node joins.  It listens at `address`, and the registry sees it connect from `peer`. -/
def join (f : Fleet) (output : Bool) (address : PeerAddress) (peer : Peer) : Fleet :=
  let k := f.nodes.length
  let n := Node.join { registry := registryAddress, output := output } address
  let f := { f with registry := f.registry.connect peer }
  { f with nodes := f.nodes ++ [n] }.collectNode k n

/-- Node `k` handles a message. -/
def receiveAt (f : Fleet) (draws : Draws) (k : Nat) (m : Message) : Fleet :=
  match f.nodes[k]? with
  | some n => f.collectNode k (n.receive f.reaches draws registryLink m)
  | none => f

/-- Delivers a parcel; `draws` is the generator of a node that is to originate packets.  A node that
has hung up takes nothing more from the registry. -/
def deliver (f : Fleet) (draws : Draws) : Parcel → Fleet
  | .toRegistry k m => f.collectRegistry (f.registry.receive k m)
  | .hangUp k => f.collectRegistry (f.registry.close k).noticeClosed
  | .toNode k m => if f.holdsRegistry k then f.receiveAt draws k m else f
  | .toPeer _ k m => f.receiveAt draws k m

/-- Delivers what is in flight, oldest first, at most `fuel` parcels. -/
def settle (draws : Draws) : (fuel : Nat) → Fleet → Fleet
  | 0, f => f
  | fuel + 1, f =>
    match f.inFlight with
    | [] => f
    | p :: ps => settle draws fuel ({ f with inFlight := ps }.deliver draws p)

/-- Gives a command to the registry. -/
def command (f : Fleet) (c : Registry → Registry × Except CommandError Nat) :
    Fleet × Except CommandError Nat :=
  let (r, outcome) := c f.registry
  (f.collectRegistry r, outcome)

/-- Node `k` asks to leave. -/
def exit (f : Fleet) (k : Nat) : Fleet × Except ExitError Unit :=
  match f.nodes[k]? with
  | none => (f, .error .notRegistered)
  | some n =>
    let (n', outcome) := n.exit
    (f.collectNode k n', outcome)

/-- Time passes for the registry. -/
def elapse (f : Fleet) (ms : Nat) : Fleet := f.collectRegistry (f.registry.elapse ms)

end Fleet

end RingOverlay
