import RingOverlay.Registry.State

/-!
# Registry — handling messages

What the registry does with each message.  A request to join or to leave is answered on the
connection it came in on.  A report that does not belong to the phase is logged and ignored.  When a
participant of the overlay leaves or is lost, the overlay is abandoned together with any run on it.
-/

namespace RingOverlay.Registry

/-! ### Membership -/

/-- Drops the overlay if the node at `address` takes part in it. -/
def abandonOverlay (r : Registry) (address : PeerAddress) (reason : String) : Registry :=
  match r.overlay with
  | none => r
  | some o =>
    if address ∈ o.participants then
      let r := (r.log (.overlayAbandoned address r.phase reason)).notice
        s!"The node at {address.text} {reason}; run setup-overlay again"
      { r with overlay := none, progress := .zero, collector := .empty }.setPhase .idle
    else r

/-- Answers a request to join. -/
def answerRegistration (r : Registry) (link : LinkId) (status : Int32) (info : String) : Registry :=
  if r.links.isOpen link then r.emit (.sent link (.registrationStatus status info))
  else r.log (.registrationUnanswered closedMessage)

/-- Answers a request to leave. -/
def answerDeregistration (r : Registry) (link : LinkId) (status : Int32) (info : String) :
    Registry :=
  if r.links.isOpen link then r.emit (.sent link (.deregistrationStatus status info))
  else r.log (.deregistrationUnanswered closedMessage)

/-- The outcome of an accepted request, in words. -/
def acceptance (request : String) (nodes : Nat) : String :=
  s!"{request} request successful. The number of messaging nodes currently constituting the " ++
    s!"overlay is ({nodes})"

/-- A node asks to join. -/
def register (r : Registry) (link : LinkId) (peer : Peer) (address : PeerAddress) : Registry :=
  match r.membership.register address peer.ip r.draws with
  | .ok (id, membership, draws) =>
    let info := acceptance "Registration" membership.size
    let r := { r with
      membership := membership
      draws := draws
      cache := r.cache.put address link
      watches := r.watches ++ [Watch.mk link address] }
    ((r.log (.admission .register (some id) address true info)).notice
      s!"Registered node from {address.text}, ID is {id.text}").answerRegistration link id.status
      info
  | .error refusal =>
    let info := s!"Registration request failed: {refusal.message}"
    ((r.log (.admission .register none address false info)).notice
      s!"Refused registration from {address.text}: {refusal.message}").answerRegistration link
      failureStatus info

/-- A node asks to leave. -/
def deregister (r : Registry) (link : LinkId) (peer : Peer) (address : PeerAddress) (id : NodeId) :
    Registry :=
  match r.membership.deregister address id peer.ip with
  | .ok (_, membership) =>
    let r := { r with membership := membership, cache := r.cache.erase address }.abandonOverlay
      address "left the overlay"
    let info := acceptance "Deregistration" membership.size
    ((r.log (.admission .deregister (some id) address true info)).notice
      s!"Deregistered node {id.text} at {address.text}").answerDeregistration link id.status info
  | .error refusal =>
    let info := s!"Deregistration request failed: {refusal.message}"
    ((r.log (.admission .deregister (some id) address false info)).notice
      s!"Refused deregistration from {address.text}: {refusal.message}").answerDeregistration link
      failureStatus info

/-- The connection of a registration has closed.  Nothing happens if the node has left since, or
has registered again on another connection. -/
def connectionLost (r : Registry) (w : Watch) : Registry :=
  if r.cache.get? w.address = some w.link then
    let (id, membership) := r.membership.removeAddress w.address
    let r := { r with membership := membership, cache := r.cache.erase w.address }
    ((r.log (.admission .disconnect id w.address true
      "connection closed without deregistering")).notice
      s!"Lost the connection to the node at {w.address.text}").abandonOverlay w.address
      "disconnected"
  else r

/-! ### Reports of the nodes -/

/-- A node reports its setup. -/
def setupReported (r : Registry) (peer : Peer) (status : Int32) (info : String) : Registry :=
  if r.phase ≠ .awaitingSetup then r.log (.lateSetupStatus r.phase status)
  else if status < 0 then
    ({ r with progress := { r.progress with failed := r.progress.failed + 1 } }.log
      (.setupFailed peer.shown info)).notice s!"A node at {peer.shown} failed to set up: {info}"
  else
    let progress := { r.progress with established := r.progress.established + 1 }
    let r := { r with progress := progress }
    if progress.established = progress.expected ∧ progress.failed = 0 then
      (r.setPhase .ready).notice "Registry now ready to initiate tasks"
    else r

/-- A node reports that it has originated its packets. -/
def taskFinished (r : Registry) (address : PeerAddress) (id : NodeId) : Registry :=
  if r.phase ≠ .running then r.log (.unexpectedFinish address id)
  else
    let progress := { r.progress with finished := r.progress.finished + 1 }
    let r := { r with progress := progress }
    if progress.finished < progress.expected then r
    else
      let r := r.setPhase .draining
      { r with timers := r.timers ++ [r.clock + r.config.quiescence] }

/-- Asks every participant for its summary, once packets have had time to land. -/
def requestSummaries (r : Registry) : Registry :=
  if r.phase ≠ .draining then r
  else
    let (r, nodes) := { r with collector := .empty }.broadcast .trafficSummaryRequest
    if nodes = 0 then (r.log .nobodyToSummarise).setPhase .ready
    else { r with progress := { r.progress with expected := nodes } }.setPhase .collecting

/-- A node reports its summary. -/
def summaryReported (r : Registry) (s : Summary) : Registry :=
  if r.phase ≠ .collecting then r.log (.unexpectedSummary s.id)
  else
    let collector := r.collector.add s
    let r := { r with collector := collector }
    if collector.size < r.progress.expected then r
    else
      let (report, left) := collector.take
      (({ r with collector := left }.setPhase .ready).notice report.text).emit (.published report)

/-! ### Dispatch -/

/-- Handles a message that came in on `link`, whose far end is `peer`. -/
def handle (r : Registry) (link : LinkId) (peer : Peer) : Message → Registry
  | .nodeRegisters address => r.register link peer address
  | .nodeDeregisters address id => r.deregister link peer address id
  | .overlaySetupStatus status info => r.setupReported peer status info
  | .taskFinished address id => r.taskFinished address id
  | .trafficSummaryReport s => r.summaryReported s
  | m => r.log (.unexpectedMessage m.kind peer.shown)

/-- Handles a message that came in on `link`, also if it has closed since. -/
def receive (r : Registry) (link : LinkId) (m : Message) : Registry :=
  match r.links.end? link with
  | some peer => r.handle link peer m
  | none => r

end RingOverlay.Registry
