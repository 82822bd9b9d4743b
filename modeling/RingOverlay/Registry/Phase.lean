import RingOverlay.Finger.Layout

/-!
# Registry — phases and progress

An experiment goes round: a setup sends every node its manifest and waits for each to report; a run
has every node originate packets and waits for each to finish; a quiescence delay lets packets land;
then summaries are collected and published, and the next run may start.
-/

namespace RingOverlay

/-- Where the registry is in the life of an experiment. -/
inductive Phase where
  /-- No overlay is set up. -/
  | idle
  /-- Manifests are out, and not every node has reported its setup. -/
  | awaitingSetup
  /-- A run may start. -/
  | ready
  /-- Nodes are originating packets. -/
  | running
  /-- Every node has finished, and packets may still land. -/
  | draining
  /-- Summaries have been asked for. -/
  | collecting
  deriving DecidableEq, Repr

namespace Phase

/-- The name of a phase. -/
def name : Phase → String
  | idle => "Idle"
  | awaitingSetup => "AwaitingSetup"
  | ready => "Ready"
  | running => "Running"
  | draining => "Draining"
  | collecting => "Collecting"

/-- Whether a run is in progress. -/
def isRun : Phase → Bool
  | running | draining | collecting => true
  | _ => false

end Phase

/-- How far a setup or a run has come. -/
structure Progress where
  expected : Nat
  established : Nat
  failed : Nat
  finished : Nat
  deriving DecidableEq, Repr

namespace Progress

/-- Nothing is expected and nothing has been reported. -/
def zero : Progress := ⟨0, 0, 0, 0⟩

/-- The progress in words. -/
def text (p : Progress) : String :=
  s!"expected {p.expected}, established {p.established}, failed {p.failed}, finished {p.finished}"

end Progress

/-- The overlay that a setup laid out: each node's table, and each node's address, in the order of
the membership. -/
structure Overlay where
  tables : List (NodeId × FingerTable)
  participants : List PeerAddress
  deriving DecidableEq

/-- Why the registry refuses a command. -/
inductive CommandError where
  | notSetUp
  | setupIncomplete (established failed expected : Nat)
  | runInProgress (phase : Phase)
  | overlay (error : LayoutError)
  | countTooLarge (count : UInt32)
  | noNodesReached
  deriving DecidableEq, Repr

namespace CommandError

/-- The error in words. -/
def message : CommandError → String
  | notSetUp => "The overlay has not been set up; run setup-overlay first"
  | setupIncomplete established failed expected =>
    s!"Setup is not complete: {established} of {expected} nodes established their connections, " ++
      s!"{failed} failed"
  | runInProgress phase => s!"A run is still in progress ({phase.name})"
  | overlay error => s!"Could not build the overlay: {error.message}"
  | countTooLarge count =>
    s!"At most 2147483647 packets may be sent per node, not {count.toNat}"
  | noNodesReached => "None of the nodes in the overlay could be reached"

end CommandError

end RingOverlay
