import RingOverlay.Fleet.State

/-!
# Fleet — runs

A run of a fleet interleaves what its operator does, what its nodes do, and what is delivered, in
any order.  What travels on one connection in one direction is a *lane*, and a lane is first in,
first out: a parcel can be delivered only if no older one is on its lane.  That a connection has
closed is one thing, and that the registry drops the registrations made on it another, so that
anything may happen in between.
-/

namespace RingOverlay

/-- One direction of one connection. -/
inductive Lane where
  /-- From a node to the registry. -/
  | up (node : Nat)
  /-- From the registry to a node. -/
  | down (node : Nat)
  /-- From a node to a node that it has dialed. -/
  | across (sender receiver : Nat)
  deriving DecidableEq, Repr

/-- The lane that a parcel travels on. -/
def Parcel.lane : Parcel → Lane
  | toRegistry k _ => .up k
  | hangUp k => .up k
  | toNode k _ => .down k
  | toPeer i k _ => .across i k

namespace Fleet

/-- Takes the oldest parcel of a lane out of those in flight. -/
def takeFrom (lane : Lane) : List Parcel → Option (Parcel × List Parcel)
  | [] => none
  | p :: ps =>
    if p.lane = lane then some (p, ps)
    else (takeFrom lane ps).map fun (q, rest) => (q, p :: rest)

/-- One thing that happens to a fleet. -/
inductive Action where
  /-- One more node joins: where it listens, and where the registry sees it connect from. -/
  | joined (output : Bool) (address : PeerAddress) (peer : Peer)
  /-- The oldest parcel of a lane is delivered. -/
  | delivered (lane : Lane) (draws : Draws)
  | setup (size : Option Nat)
  | start (count : UInt32)
  /-- A node asks to leave. -/
  | exited (node : Nat)
  /-- A node's connection to the registry breaks. -/
  | broke (node : Nat)
  /-- The registry drops a registration whose connection has closed. -/
  | noticed (watch : Watch)
  | elapsed (ms : Nat)

/-- The registry's end of a connection closes. -/
def closeAt (f : Fleet) (k : Nat) : Fleet := { f with registry := f.registry.close k }

/-- A node's connection to the registry breaks, at both ends. -/
def breakLink (f : Fleet) (k : Nat) : Fleet :=
  match f.nodes[k]? with
  | none => f
  | some n => { f with nodes := f.nodes.set k (n.close registryLink) }.closeAt k

/-- The registry notices that the connection of a registration has closed, if it has. -/
def notice (f : Fleet) (w : Watch) : Fleet :=
  let r := f.registry
  if w ∈ r.watches ∧ w.link ∈ r.links.closed then
    f.collectRegistry ({ r with watches := r.watches.erase w }.connectionLost w)
  else f

/-- The fleet after an action. -/
def act (f : Fleet) : Action → Fleet
  | .joined output address peer => f.join output address peer
  | .delivered lane draws =>
    match takeFrom lane f.inFlight with
    | some (.hangUp k, rest) => { f with inFlight := rest }.closeAt k
    | some (p, rest) => { f with inFlight := rest }.deliver draws p
    | none => f
  | .setup size => (f.command (·.setup size)).1
  | .start count => (f.command (·.start count)).1
  | .exited k => (f.exit k).1
  | .broke k => f.breakLink k
  | .noticed w => f.notice w
  | .elapsed ms => f.elapse ms

/-- The fleet after a run. -/
def run (f : Fleet) (actions : List Action) : Fleet := actions.foldl act f

end Fleet

end RingOverlay
