import RingOverlay.Registry.Run
import RingOverlay.Registry.Console

/-!
# Registry — sessions

A session is a run of a registry in which connections have names, and in which every request is
followed by the registry noticing what has closed.  The reply to a request is its outcome and the
effects it had, oldest first.
-/

namespace RingOverlay.Registry

/-- A registry in a session: its connections go by names, the newest first. -/
structure Session where
  registry : Registry
  names : List (String × LinkId)

/-- What is asked of the registry. -/
inductive Request where
  /-- Nothing is asked. -/
  | pass
  | connect (name : String) (ip : Ip)
  | close (name : String)
  | message (name : String) (message : Message)
  /-- Bytes arrive on a connection, and then its stream ends. -/
  | stream (name : String) (bytes : List UInt8)
  | setup (size : Option Nat)
  | start (count : UInt32)
  | listNodes
  | listTables
  | line (line : String)
  | console (input : List UInt8)
  | elapse (ms : Nat)

/-- What a request comes to. -/
inductive Outcome where
  | nothing
  | count (n : Nat)
  | text (s : String)
  | commandError (e : CommandError)
  | lineError (e : LineError)
  /-- The console's input was not UTF-8. -/
  | notUtf8
  deriving DecidableEq, Repr

/-- The reply to a request. -/
structure Reply where
  outcome : Outcome
  phase : Phase
  nodes : Nat
  /-- The effects of the request, oldest first. -/
  effects : List RegistryEffect

namespace Session

/-- The longest payload that the registry of a session accepts. -/
def frameLimit : Nat := 1024 * 1024

/-- A session over a registry that nothing has happened to. -/
def ofRegistry (r : Registry) : Session := ⟨{ r with effects := [] }, []⟩

/-- The connection that goes by a name. -/
def link? (s : Session) (name : String) : Option LinkId := s.names.lookup name

/-- The name that a connection went by. -/
def name? (s : Session) (link : LinkId) : Option String :=
  (s.names.find? (·.2 == link)).map Prod.fst

/-- The socket address of the peer of a name, in words. -/
def shownPeer (name : String) : String := s!"<peer {name}>"

/-- Handles the frames of a stream in order; then the connection closes. -/
def receiveStream (r : Registry) (link : LinkId) (bytes : List UInt8) : Registry :=
  if r.links.isOpen link then
    let (ms, ending) := Frame.receive frameLimit bytes
    let r := ms.foldl (fun r m => r.receive link m) r
    let r :=
      match ending.message?, r.links.end? link with
      | some fault, some peer => r.log (.streamFault peer.shown fault)
      | _, _ => r
    r.close link
  else r

/-- The outcome of a command that counts nodes. -/
def counted : Except CommandError Nat → Outcome
  | .ok n => .count n
  | .error e => .commandError e

/-- Carries out a request on the registry; a request on an unknown name does nothing. -/
def perform (s : Session) : Request → Session × Outcome
  | .pass => (s, .nothing)
  | .connect name ip =>
    let r := s.registry
    (⟨r.connect ⟨ip, shownPeer name⟩, (name, r.links.fresh) :: s.names⟩, .nothing)
  | .close name =>
    match s.link? name with
    | some link => ({ s with registry := s.registry.close link }, .nothing)
    | none => (s, .nothing)
  | .message name m =>
    match s.link? name with
    | some link => ({ s with registry := s.registry.receive link m }, .nothing)
    | none => (s, .nothing)
  | .stream name bytes =>
    match s.link? name with
    | some link => ({ s with registry := receiveStream s.registry link bytes }, .nothing)
    | none => (s, .nothing)
  | .setup size =>
    let (r, n) := s.registry.setup size
    ({ s with registry := r }, counted n)
  | .start count =>
    let (r, n) := s.registry.start count
    ({ s with registry := r }, counted n)
  | .listNodes => (s, .text s.registry.listNodes)
  | .listTables => (s, .text s.registry.listTables)
  | .line line =>
    match RegistryCommand.parse line with
    | .error e => (s, .lineError e)
    | .ok command =>
      let (r, outcome) := s.registry.execute command
      ({ s with registry := r }, .text outcome)
  | .console input =>
    let (r, utf8) := s.registry.console input
    ({ s with registry := r }, if utf8 then .nothing else .notUtf8)
  | .elapse ms => ({ s with registry := s.registry.elapse ms }, .nothing)

/-- Closes the connections that go by names, in order. -/
def closeAll (s : Session) (names : List String) : Session :=
  { s with registry := (names.filterMap s.link?).foldl Registry.close s.registry }

/-- Answers a request right before which connections close.  Closings are noticed once the request
has been carried out, and then timers that are already due fire. -/
def step (s : Session) (closing : List String) (request : Request) : Session × Reply :=
  let s := { s with registry := { s.registry with effects := [] } }
  let (s, outcome) := (s.closeAll closing).perform request
  let r := s.registry.noticeClosed.fireDue
  ({ s with registry := r }, ⟨outcome, r.phase, r.membership.size, r.effects.reverse⟩)

end Session

end RingOverlay.Registry
