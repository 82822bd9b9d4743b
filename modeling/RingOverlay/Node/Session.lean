import RingOverlay.Node.Console

/-!
# Node — sessions

A session is a run of one node among peers that it may or may not reach.  A caller is connected to
the node and sends it messages; the node's own links are the one to its registry and those it dials.
-/

namespace RingOverlay.Node

/-- A node in a session, with the addresses, as texts, at which something listens. -/
structure Session where
  node : Node
  listening : List String

/-- What happens to the node. -/
inductive Request where
  /-- Nothing happens. -/
  | pass
  /-- A message comes in from the caller. -/
  | receive (message : Message) (draws : Draws)
  | exit
  | diagnostics
  | table
  | counters
  | console (input : List UInt8) (answer : Option Answer)
  /-- The other end of a link goes away. -/
  | drop (link : String)
  /-- Nothing listens at an address any more. -/
  | stop (address : String)

/-- What a request comes to. -/
inductive Outcome where
  | nothing
  | text (s : String)
  | entries (es : List Entry)
  | exitError (e : ExitError)
  /-- The console's input was not UTF-8. -/
  | notUtf8
  deriving DecidableEq, Repr

namespace Session

/-- Where the registry of a session listens. -/
def registryAddress : PeerAddress := ⟨"127.0.0.1", 5000⟩

/-- Where the node of a session listens. -/
def nodeAddress : PeerAddress := ⟨"127.0.0.1", 6000⟩

/-- The node has joined, and the caller has connected to it. -/
def opened (output : Bool) (reachable : List String) : Session where
  node :=
    (Node.join { registry := registryAddress, output := output } nodeAddress).accept "<caller>"
  listening := registryAddress.text :: reachable

/-- Whether a dial to an address succeeds. -/
def reaches (s : Session) (a : PeerAddress) : Bool := s.listening.contains a.text

/-! ### Names of links -/

/-- The name of the link to an endpoint: `n` is how many links led there before. -/
def linkName (far : Endpoint) (n : Nat) : String :=
  match far with
  | .accepted _ => "caller"
  | .dialed a => if a = registryAddress then "registry" else s!"{a.text}#{n + 1}"

/-- The name of each link, in the order in which they were made. -/
def linkNames : (before : List Endpoint) → List Endpoint → List String
  | _, [] => []
  | before, far :: rest => linkName far (before.count far) :: linkNames (far :: before) rest

/-- Whether an endpoint is meant by a name: the caller, the registry, or an address. -/
def isCalled (name : String) : Endpoint → Bool
  | .accepted _ => name == "caller"
  | .dialed a => name == a.text || (name == "registry" && a == registryAddress)

/-- The newest link to what a name means. -/
def newest? (s : Session) (name : String) : Option LinkId :=
  (List.range s.node.links.ends.length).reverse.find? fun link =>
    (s.node.links.end? link).any (isCalled name)

/-- The link on which the caller is connected. -/
def caller : LinkId := 1

/-! ### Requests -/

/-- Carries out a request. -/
def perform (s : Session) : Request → Session × Outcome
  | .pass => (s, .nothing)
  | .receive m draws => ({ s with node := s.node.receive s.reaches draws caller m }, .nothing)
  | .exit =>
    match s.node.exit with
    | (n, .ok ()) => ({ s with node := n }, .nothing)
    | (n, .error e) => ({ s with node := n }, .exitError e)
  | .diagnostics => (s, .text s.node.diagnostics)
  | .table => (s, .entries s.node.topology.table.entries)
  | .counters => (s, .text s.node.counters.text)
  | .console input answer =>
    let (n, utf8) := s.node.console input answer
    ({ s with node := n }, if utf8 then .nothing else .notUtf8)
  | .drop name =>
    match s.newest? name with
    | some link => ({ s with node := s.node.close link }, .nothing)
    | none => (s, .nothing)
  | .stop address => ({ s with listening := s.listening.filter (· != address) }, .nothing)

/-- The effects of the last request, oldest first, given how many there were before it. -/
def effectsSince (s : Session) (before : Nat) : List NodeEffect :=
  (s.node.effects.take (s.node.effects.length - before)).reverse

/-- Everything sent on a link, in order. -/
def sentOn (effects : List NodeEffect) (link : LinkId) : List Message :=
  effects.filterMap fun
    | .sent l m => if l = link then some m else none
    | _ => none

/-- What was sent on each link but the caller's, in order, under the link's name.  Links that share
a name share an entry. -/
def links (s : Session) : List (String × List Message) :=
  let effects := s.node.effects.reverse
  let names := linkNames [] s.node.links.ends
  let named := names.zipIdx.filter (·.1 != "caller")
  named.foldl (fun acc (name, link) =>
    if (acc.lookup name).isSome then
      acc.map fun (k, ms) => if k = name then (k, ms ++ sentOn effects link) else (k, ms)
    else acc ++ [(name, sentOn effects link)]) []

end Session

end RingOverlay.Node
