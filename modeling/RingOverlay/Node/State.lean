import RingOverlay.Config
import RingOverlay.Link.Cache
import RingOverlay.Link.Fault
import RingOverlay.Link.Links
import RingOverlay.Node.Event
import RingOverlay.Traffic.Counters

/-!
# Node — state and effects

A node knows its own identifier, its fingers and the identifiers of the overlay, and keeps its
connections: the one to the registry and those it has dialed, cached under the addresses they lead
to, and those that peers have opened.  While it dials the fingers of a manifest, that setup is under
way, and the node goes on with other connections.  Its effects on the world are the messages it
queues, the events it logs and the lines it prints, newest first.
-/

namespace RingOverlay

/-- The far end of a node's connection. -/
inductive Endpoint where
  /-- The node dialed an address. -/
  | dialed (address : PeerAddress)
  /-- A peer connected; its socket address in words. -/
  | accepted (shown : String)
  deriving DecidableEq, Repr

/-- The socket address at the far end, in words. -/
def Endpoint.shown : Endpoint → String
  | dialed address => address.text
  | accepted shown => shown

/-- What a node knows of the overlay. -/
structure Topology where
  id : Option NodeId
  table : FingerTable
  /-- Every identifier in the overlay, the node's own included. -/
  nodeIds : List NodeId
  deriving DecidableEq

/-- What a node knows before it registers, and after it has left. -/
def Topology.none : Topology := ⟨Option.none, .empty, []⟩

/-- A setup that is under way: the node has taken up a manifest, and its dials have not ended. -/
structure Setup where
  /-- The connection that the manifest came in on. -/
  link : LinkId
  /-- The identifier that the node had when it took the manifest up. -/
  id : Option NodeId
  /-- At how many addresses the fingers are. -/
  fingers : Nat
  /-- The addresses that are dialed, in hop order. -/
  dials : List PeerAddress
  deriving DecidableEq

/-- What a node does to the world. -/
inductive NodeEffect where
  /-- A message was queued on an open connection. -/
  | sent (link : LinkId) (message : Message)
  | logged (event : NodeEvent)
  | printed (line : String)
  deriving DecidableEq

/-- A node. -/
structure Node where
  config : NodeConfig
  /-- The address that the node advertises. -/
  address : PeerAddress
  cache : Cache LinkId
  links : Links Endpoint
  topology : Topology
  counters : Counters
  state : NodeState
  /-- The setups that are under way, oldest first. -/
  setups : List Setup
  /-- What the node has done, newest first. -/
  effects : List NodeEffect

/-- Why a node refuses to leave the overlay. -/
inductive ExitError where
  | notRegistered
  | registryDisconnected
  deriving DecidableEq, Repr

/-- The error in words. -/
def ExitError.message : ExitError → String
  | notRegistered => "The node is not registered"
  | registryDisconnected => "The connection to the registry is gone"

/-- What a refused dial says. -/
def refusedDial (address : PeerAddress) : String :=
  s!"Could not reach {address.text}: {NetworkFault.connectionRefused.message}"

namespace Node

/-! ### Effects -/

/-- One more effect. -/
def emit (n : Node) (e : NodeEffect) : Node := { n with effects := e :: n.effects }

/-- Logs an event. -/
def log (n : Node) (e : NodeEvent) : Node := n.emit (.logged e)

/-- Prints a notice, if notices are wanted. -/
def notice (n : Node) (line : String) : Node :=
  if n.config.output then n.emit (.printed line) else n

/-- Enters a state. -/
def setState (n : Node) (s : NodeState) (note : String) : Node :=
  { n with state := s }.log (.state n.topology.id s note)

/-! ### Connections -/

/-- The cached connection to `address`, if it is still open. -/
def live? (n : Node) (address : PeerAddress) : Option LinkId :=
  (n.cache.get? address).filter n.links.isOpen

/-- The connection to the registry, if it is still open. -/
def registry? (n : Node) : Option LinkId := n.live? n.config.registry

/-- A peer connects. -/
def accept (n : Node) (shown : String) : Node :=
  { n with links := n.links.connect (.accepted shown) }

/-- A connection closes. -/
def close (n : Node) (link : LinkId) : Node := { n with links := n.links.close link }

/-- Connects to `address` and keeps the connection. -/
def dial (n : Node) (address : PeerAddress) : Node :=
  { n with
    links := n.links.connect (.dialed address)
    cache := n.cache.put address n.links.fresh }

/-- Sends to the registry, or logs that it cannot be reached. -/
def sendToRegistry (n : Node) (m : Message) : Node :=
  match n.registry? with
  | some link => n.emit (.sent link m)
  | none => n.log (.registryUnreached m.kind closedMessage)

/-- A node that listens on `address`, has connected to the registry, and asks to register. -/
def join (config : NodeConfig) (address : PeerAddress) : Node :=
  let n : Node := {
    config := config
    address := address
    cache := .empty
    links := .empty
    topology := .none
    counters := .zero
    state := .unregistered
    setups := []
    effects := [] }
  ((n.dial config.registry).sendToRegistry (.nodeRegisters address)).log
    (.state none .unregistered "registration requested")

end Node

end RingOverlay
