import RingOverlay.Node.State
import RingOverlay.Ring.Draws

/-!
# Node — handling messages

What a node does with each message.  A manifest has it dial the fingers that it has no live
connection to, and report the outcome to the registry.  A task has it originate packets for random
other nodes.  A packet that is not for the node goes on to the finger that its table chooses, and is
dropped if there is none or no live connection leads there.

A message is handled at once, but for a manifest.  The node takes it up and waits for its dials, and
meanwhile it handles what comes in on other connections; the report that it makes when the dials
have ended is about the identifier that it had when it took the manifest up.
-/

namespace RingOverlay.Node

/-! ### Joining and leaving -/

/-- The registry answers the request to join. -/
def registrationStatus (n : Node) (status : Int32) (info : String) : Node :=
  if status < 0 then (n.notice info).log (.state none .unregistered info)
  else
    match NodeId.ofInt status.toInt with
    | .ok id =>
      ({ n with topology := { n.topology with id := some id } }.notice info).setState .registered
        info
    | .error e => n.log (.badIdAssigned e.message)

/-- Lets go of the connection to the registry. -/
def leaveRegistry (n : Node) : Node :=
  match n.cache.get? n.config.registry with
  | some link => { n with cache := n.cache.erase n.config.registry }.close link
  | none => n

/-- The registry answers the request to leave. -/
def deregistrationStatus (n : Node) (status : Int32) (info : String) : Node :=
  let n := n.notice info
  if status < 0 then n.log (.state n.topology.id n.state info)
  else { n with topology := .none }.leaveRegistry.setState .unregistered info

/-- Asks the registry to remove the node. -/
def exit (n : Node) : Node × Except ExitError Unit :=
  match n.topology.id with
  | none => (n, .error .notRegistered)
  | some id =>
    match n.registry? with
    | none => (n, .error .registryDisconnected)
    | some link =>
      ((n.emit (.sent link (.nodeDeregisters n.address id))).log
        (.state (some id) n.state "deregistration requested"), .ok ())

/-! ### Manifests -/

/-- The addresses of fingers, each once, in hop order. -/
def fingerAddresses (table : FingerTable) : List PeerAddress :=
  (table.entries.map Entry.address).foldl (fun as a => if a ∈ as then as else as ++ [a]) []

/-- Dials each address in turn; gives what the dials that were refused say. -/
def dialEach (reaches : PeerAddress → Bool) : List PeerAddress → Node → Node × List String
  | [], n => (n, [])
  | a :: as, n =>
    if reaches a then dialEach reaches as (n.dial a)
    else
      let (n', failures) := dialEach reaches as (n.log (.fingerUnreached a (refusedDial a)))
      (n', refusedDial a :: failures)

/-- The outcome of a setup: the status to report, and the outcome in words. -/
def setupOutcome (id : Option NodeId) (fingers : Nat) (failures : List String) : Int32 × String :=
  match id with
  | some id =>
    if failures = [] then (id.status, s!"Node {id.text} connected to {fingers} fingers")
    else (failureStatus, "Could not connect to every finger: " ++ "; ".intercalate failures)
  | none => (failureStatus, "Received a manifest before registering")

/-- The registry sends the manifest of an overlay, on the connection `link`.  The node takes it up,
and sets out to dial the fingers that it has no live connection to. -/
def takeUp (n : Node) (link : LinkId) (table : FingerTable) (nodeIds : List NodeId) : Node :=
  let fingers := fingerAddresses table
  let n := { n with topology := ⟨n.topology.id, table, nodeIds⟩ }.setState .manifestReceived
    "manifest received"
  let dials := fingers.filter fun a => (n.live? a).isNone
  { n with setups := n.setups ++ [⟨link, n.topology.id, fingers.length, dials⟩] }

/-- The node reports the outcome of a setup. -/
def reportSetup (n : Node) (outcome : Int32 × String) : Node :=
  let (status, info) := outcome
  let established := status != failureStatus
  let n := n.setState (if established then .connectionsEstablished else .connectionsFailed) info
  (n.sendToRegistry (.overlaySetupStatus status info)).setState (.setupReported established)
    "setup reported"

/-- The dials of the `k`-th setup under way have ended, and were refused but where `reaches` says
otherwise.  The node keeps the connections that were made, and reports whether it has reached all
its fingers. -/
def finishSetup (n : Node) (reaches : PeerAddress → Bool) (k : Nat) : Node :=
  match n.setups[k]? with
  | some s =>
    let (n, failures) := dialEach reaches s.dials { n with setups := n.setups.eraseIdx k }
    n.reportSetup (setupOutcome s.id s.fingers failures)
  | none => n

/-! ### Packets -/

/-- Hands a packet to the finger that the table chooses for it.  Says whether it was queued; if not,
it is dropped at `me`. -/
def forward (n : Node) (me : NodeId) (p : Packet) : Node × Bool :=
  let dropped : NodeEvent := .packet me .dropped p.src p.dst p.payload p.trace.length
  match n.topology.table.nextHop p.dst with
  | none => ((n.log (.noRoute p.dst)).log dropped, false)
  | some hop =>
    match n.live? hop.entry.address with
    | none => ((n.log (.noConnection p.dst hop.entry.address)).log dropped, false)
    | some link => (n.emit (.sent link (.dataPacket p)), true)

/-- Originates `count` packets for nodes drawn from `others`. -/
def originate (me : NodeId) (others : List NodeId) : (count : Nat) → Draws → Node → Node
  | 0, _, n => n
  | count + 1, draws, n =>
    let (index, draws) := draws.below others.length
    let (payload, draws) := draws.payload
    match others[index]? with
    | none => n
    | some dst =>
      let n := { n with counters := n.counters.recordSent payload }.log
        (.packet me .originated me dst payload 0)
      originate me others count draws (n.forward me ⟨dst, me, payload, []⟩).1

/-- The registry has the node originate packets.  The node reports when it is done; with nobody else
in the overlay it is done at once. -/
def initiateTask (n : Node) (draws : Draws) (count : UInt32) : Node :=
  match n.topology.id with
  | none => n.log .askedToSendUnregistered
  | some id =>
    let others := n.topology.nodeIds.filter (· != id)
    let n := if others = [] then n else originate id others count.toNat draws n
    (n.log (.state (some id) n.state s!"finished sending {count.toNat} packets")).sendToRegistry
      (.taskFinished n.address id)

/-- A packet arrives. -/
def packetArrived (n : Node) (p : Packet) : Node :=
  match n.topology.id with
  | none => n.log .packetUnregistered
  | some me =>
    if p.dst = me then
      { n with counters := n.counters.recordReceived p.payload }.log
        (.packet me .delivered p.src p.dst p.payload p.trace.length)
    else
      let p := { p with trace := p.trace ++ [me] }
      match n.forward me p with
      | (n, true) =>
        { n with counters := n.counters.recordRelayed }.log
          (.packet me .relayed p.src p.dst p.payload p.trace.length)
      | (n, false) => n

/-- A summary is asked for, on the connection `link`.  The counters start over, also if the summary
cannot be sent. -/
def summarise (n : Node) (link : LinkId) : Node :=
  match n.topology.id with
  | none => n.log .askedToSummariseUnregistered
  | some id =>
    let (taken, left) := n.counters.take
    let n := { n with counters := left }
    if n.links.isOpen link then n.emit (.sent link (.trafficSummaryReport (taken.summary id)))
    else n.log (.summaryUnsent closedMessage)

/-! ### Dispatch -/

/-- Handles a message that came in on `link`, whose far end is `far`, until it is done or waits for
dials: `draws` is the generator for packets to originate. -/
def hear (n : Node) (draws : Draws) (link : LinkId) (far : Endpoint) : Message → Node
  | .registrationStatus status info => n.registrationStatus status info
  | .deregistrationStatus status info => n.deregistrationStatus status info
  | .nodeManifest table nodeIds => n.takeUp link table nodeIds
  | .taskInitiate count => n.initiateTask draws count
  | .dataPacket p => n.packetArrived p
  | .trafficSummaryRequest => n.summarise link
  | m => n.log (.unexpectedMessage m.kind far.shown)

/-- Handles a message to its end, with nothing else in between: `reaches` says which addresses can be
dialed. -/
def handle (n : Node) (reaches : PeerAddress → Bool) (draws : Draws) (link : LinkId)
    (far : Endpoint) (m : Message) : Node :=
  match m with
  | .nodeManifest .. => (n.hear draws link far m).finishSetup reaches n.setups.length
  | _ => n.hear draws link far m

/-- Handles a message that came in on `link`, also if it has closed since. -/
def receive (n : Node) (reaches : PeerAddress → Bool) (draws : Draws) (link : LinkId)
    (m : Message) : Node :=
  match n.links.end? link with
  | some far => n.handle reaches draws link far m
  | none => n

/-! ### Actions -/

/-- One thing that happens to a node. -/
inductive Action where
  | accepted (shown : String)
  | closed (link : LinkId)
  | received (draws : Draws) (link : LinkId) (message : Message)
  /-- The dials of a setup have ended. -/
  | dialed (reaches : PeerAddress → Bool) (k : Nat)
  | exited

/-- Whether a setup is under way whose manifest came in on `link`. -/
def isBusy (n : Node) (link : LinkId) : Bool := n.setups.any (·.link == link)

/-- The far end of a connection, if messages are read from it: it may have closed, but a manifest
that came in on it has been dealt with. -/
def read? (n : Node) (link : LinkId) : Option Endpoint :=
  if n.isBusy link then none else n.links.end? link

/-- The node after an action. -/
def act (n : Node) : Action → Node
  | .accepted shown => n.accept shown
  | .closed link => n.close link
  | .received draws link m =>
    match n.read? link with
    | some far => n.hear draws link far m
    | none => n
  | .dialed reaches k => n.finishSetup reaches k
  | .exited => n.exit.1

theorem act_received {n : Node} {link : LinkId} {far : Endpoint} (h : n.read? link = some far)
    (draws : Draws) (m : Message) :
    n.act (.received draws link m) = n.hear draws link far m := by
  simp only [act, h]

theorem act_received_of_unread {n : Node} {link : LinkId} (h : n.read? link = none)
    (draws : Draws) (m : Message) : n.act (.received draws link m) = n := by
  simp only [act, h]

/-- The node after a sequence of actions. -/
def run (n : Node) (actions : List Action) : Node := actions.foldl act n

end RingOverlay.Node
