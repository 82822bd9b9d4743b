import RingOverlay.Link.Cache
import RingOverlay.Link.Links
import RingOverlay.Message.Basic

/-!
# Link — connections and one cache

Named connections, the messages queued on each, and a cache of them.  A connection delivers all that
was queued before it closed, and takes nothing after that; a cache keeps closed connections, and
`live?` passes over them.
-/

namespace RingOverlay

/-- Connections under names, with a cache of them. -/
structure Exchange where
  /-- The connections, each with its name. -/
  links : Links String
  cache : Cache LinkId
  /-- What was queued, newest first. -/
  queued : List (LinkId × Message)

namespace Exchange

/-- No connections yet. -/
def empty : Exchange := ⟨.empty, .empty, []⟩

/-- The newest connection with a name. -/
def link? (x : Exchange) (name : String) : Option LinkId :=
  x.links.ends.reverse.idxOf? name |>.map fun back => x.links.ends.length - 1 - back

/-- The cached connection under `address` that is still open. -/
def live? (x : Exchange) (address : PeerAddress) : Option LinkId :=
  (x.cache.get? address).filter x.links.isOpen

/-- Queues a message on a connection, if it is open. -/
def send? (x : Exchange) (link : LinkId) (m : Message) : Option Exchange :=
  if x.links.isOpen link then some { x with queued := (link, m) :: x.queued } else none

/-- What a connection delivers, in order, as it arrives. -/
def delivered (x : Exchange) (link : LinkId) : List Message :=
  (x.queued.filter (·.1 == link)).reverse.map fun q => q.2.clamp

/-! ### Requests -/

/-- What is asked of an exchange. -/
inductive Request where
  | connect (name : String)
  /-- Either side closes the connection. -/
  | close (name : String)
  | send (name : String) (message : Message)
  | isClosed (name : String)
  | put (name : String) (address : PeerAddress)
  | get (address : PeerAddress)
  | getLive (address : PeerAddress)
  | remove (address : PeerAddress)
  | contains (address : PeerAddress)

/-- What a request comes to. -/
inductive Outcome where
  | nothing
  /-- The connection is closed. -/
  | closed
  | flag (b : Bool)
  | connection (name : Option String)
  deriving DecidableEq, Repr

/-- The name of a connection, as an outcome. -/
def named (x : Exchange) (link : Option LinkId) : Outcome :=
  .connection (link.bind x.links.end?)

/-- Answers a request about a connection that goes by a name; an unknown name counts as closed. -/
def about (x : Exchange) (name : String) (f : LinkId → Exchange × Outcome) : Exchange × Outcome :=
  match x.link? name with
  | some link => f link
  | none => (x, .closed)

/-- Answers a request. -/
def step (x : Exchange) : Request → Exchange × Outcome
  | .connect name => ({ x with links := x.links.connect name }, .nothing)
  | .close name => x.about name fun link => ({ x with links := x.links.close link }, .nothing)
  | .send name m => x.about name fun link =>
    match x.send? link m with
    | some x' => (x', .nothing)
    | none => (x, .closed)
  | .isClosed name => x.about name fun link => (x, .flag !(x.links.isOpen link))
  | .put name address => x.about name fun link =>
    ({ x with cache := x.cache.put address link }, x.named (x.cache.get? address))
  | .get address => (x, x.named (x.cache.get? address))
  | .getLive address => (x, x.named (x.live? address))
  | .remove address =>
    ({ x with cache := x.cache.erase address }, x.named (x.cache.get? address))
  | .contains address => (x, .flag (x.cache.contains address))

end Exchange

end RingOverlay
