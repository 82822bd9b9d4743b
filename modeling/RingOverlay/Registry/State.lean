import RingOverlay.Config
import RingOverlay.Link.Cache
import RingOverlay.Link.Links
import RingOverlay.Registry.Event
import RingOverlay.Registry.Membership
import RingOverlay.Traffic.Report

/-!
# Registry — state and effects

A registry is its membership, the overlay of the last setup with the progress made on it, the
connections it has, what it still watches and waits for, and the effects it has had on the world:
messages queued, events logged, lines printed and reports published, newest first.

Two things happen some time after their cause.  When a connection closes, the registrations made on
it are dropped once the registry notices; until then each is on `watches`.  When the last node has
finished, a timer is set, and summaries are asked for when it runs out; `timers` holds the
deadlines.
-/

namespace RingOverlay

/-- The far end of a connection to the registry. -/
structure Peer where
  /-- The IP address that the connection was observed to come from. -/
  ip : Ip
  /-- The socket address in words. -/
  shown : String
  deriving DecidableEq, Repr

/-- A registration whose connection is watched. -/
structure Watch where
  link : LinkId
  address : PeerAddress
  deriving DecidableEq, Repr

/-- What a registry does to the world. -/
inductive RegistryEffect where
  /-- A message was queued on an open connection. -/
  | sent (link : LinkId) (message : Message)
  | logged (event : RegistryEvent)
  | printed (line : String)
  | published (report : Report)
  deriving DecidableEq

/-- A registry. -/
structure Registry where
  config : RegistryConfig
  membership : Membership
  draws : Draws
  phase : Phase
  overlay : Option Overlay
  progress : Progress
  collector : Collector
  /-- Connections of registered nodes, under the addresses they advertise. -/
  cache : Cache LinkId
  links : Links Peer
  /-- Registrations whose connection has not been noticed to close, in the order made. -/
  watches : List Watch
  /-- Deadlines of the timers still running, in the order set. -/
  timers : List Nat
  /-- The time that has passed, in milliseconds. -/
  clock : Nat
  /-- What the registry has done, newest first. -/
  effects : List RegistryEffect

/-- The refusal of a ring size that no ring can have. -/
structure InvalidRingSize where
  size : Nat
  deriving DecidableEq, Repr

/-- The refusal in words. -/
def InvalidRingSize.message (e : InvalidRingSize) : String :=
  s!"The ring size must be between 1 and {ringSize}, not {e.size}"

namespace Registry

/-- A registry that nothing has happened to. -/
def initial (config : RegistryConfig) (draws : Draws) : Registry where
  config := config
  membership := .empty config.ringSize
  draws := draws
  phase := .idle
  overlay := none
  progress := .zero
  collector := .empty
  cache := .empty
  links := .empty
  watches := []
  timers := []
  clock := 0
  effects := []

/-! ### Effects -/

/-- One more effect. -/
def emit (r : Registry) (e : RegistryEffect) : Registry := { r with effects := e :: r.effects }

/-- Logs an event. -/
def log (r : Registry) (e : RegistryEvent) : Registry := r.emit (.logged e)

/-- Prints a notice, if notices are wanted. -/
def notice (r : Registry) (line : String) : Registry :=
  if r.config.output then r.emit (.printed line) else r

/-- Opens a registry whose socket is bound to `bound`. -/
def listen (config : RegistryConfig) (draws : Draws) (bound : String) :
    Except InvalidRingSize Registry :=
  if config.ringSize = 0 ∨ RingOverlay.ringSize < config.ringSize then .error ⟨config.ringSize⟩
  else .ok ((initial config draws).log (.phase .idle ("listening on " ++ bound)))

/-- Enters a phase. -/
def setPhase (r : Registry) (p : Phase) : Registry :=
  { r with phase := p }.log (.phase p r.progress.text)

/-! ### Sending -/

/-- Sends to the node at `address` over its cached connection; says whether that was possible. -/
def send (r : Registry) (address : PeerAddress) (m : Message) : Registry × Bool :=
  match r.cache.get? address with
  | none => (r.log (.notSent address m.kind "no connection"), false)
  | some link =>
    if r.links.isOpen link then (r.emit (.sent link m), true)
    else (r.log (.notSent address m.kind closedMessage), false)

/-- Sends to every address in turn; says to how many that was possible. -/
def sendEach (m : Message) : List PeerAddress → Registry → Registry × Nat
  | [], r => (r, 0)
  | a :: as, r =>
    let (r', reached) := r.send a m
    let (r'', n) := sendEach m as r'
    (r'', if reached then n + 1 else n)

/-- Sends to every participant of the overlay; says how many were reached. -/
def broadcast (r : Registry) (m : Message) : Registry × Nat :=
  match r.overlay with
  | some o => sendEach m o.participants r
  | none => (r, 0)

end Registry

end RingOverlay
