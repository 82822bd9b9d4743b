import RingOverlay.Registry.Handlers
import RingOverlay.Registry.Commands

/-!
# Registry — runs

A run of the registry is a sequence of actions: peers connect and close, messages come in, commands
are given, time passes, and closings are noticed.  A closing is one action and its being noticed
another, so that a run may do anything in between.
-/

namespace RingOverlay.Registry

/-! ### Closings -/

/-- A peer connects. -/
def connect (r : Registry) (peer : Peer) : Registry := { r with links := r.links.connect peer }

/-- A connection closes; the registry has not noticed yet. -/
def close (r : Registry) (link : LinkId) : Registry := { r with links := r.links.close link }

/-- Drops the registrations of `watches` one after the other. -/
def loseAll : List Watch → Registry → Registry
  | [], r => r
  | w :: ws, r => loseAll ws (r.connectionLost w)

/-- The watches on connections that have closed: connections in the order they closed, and the
registrations on one connection in the order they were made. -/
def overdue (r : Registry) : List Watch :=
  r.links.closed.flatMap fun link => r.watches.filter (·.link == link)

/-- Notices every connection that has closed. -/
def noticeClosed (r : Registry) : Registry :=
  loseAll r.overdue { r with watches := r.watches.filter fun w => !r.links.closed.contains w.link }

/-! ### Time -/

/-- Fires each of `n` timers in turn. -/
def fireEach : Nat → Registry → Registry
  | 0, r => r
  | n + 1, r => fireEach n r.requestSummaries

/-- Fires the timers whose deadline has come. -/
def fireDue (r : Registry) : Registry :=
  let due := r.timers.filter (· ≤ r.clock)
  fireEach due.length { r with timers := r.timers.filter fun t => !decide (t ≤ r.clock) }

/-- Time passes, and the timers that run out fire. -/
def elapse (r : Registry) (ms : Nat) : Registry := { r with clock := r.clock + ms }.fireDue

/-! ### Actions -/

/-- One thing that happens to a registry. -/
inductive Action where
  | connected (peer : Peer)
  | closed (link : LinkId)
  | noticed
  | received (link : LinkId) (message : Message)
  | setup (size : Option Nat)
  | start (count : UInt32)
  | elapsed (ms : Nat)

/-- The registry after an action. -/
def act (r : Registry) : Action → Registry
  | .connected peer => r.connect peer
  | .closed link => r.close link
  | .noticed => r.noticeClosed
  | .received link m => r.receive link m
  | .setup size => (r.setup size).1
  | .start count => (r.start count).1
  | .elapsed ms => r.elapse ms

/-- The registry after a run. -/
def run (r : Registry) (actions : List Action) : Registry := actions.foldl act r

end RingOverlay.Registry
