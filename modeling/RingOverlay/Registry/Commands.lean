import RingOverlay.Registry.State

/-!
# Registry — commands

What the operator may ask of the registry: to list the nodes and their tables, to set up an overlay
over the present membership, and to start a run on an overlay that is up.  A refused command leaves
the registry as it was; a start that reaches nobody has still logged whom it could not reach.
-/

namespace RingOverlay.Registry

/-- One line per registered node, in the order of identifiers. -/
def listNodes (r : Registry) : String :=
  if r.membership.members = [] then "There are no registered messaging nodes"
  else
    Text.unlines (r.membership.members.map fun e =>
      s!"{e.id.text}, {e.address.host}, {e.address.port.toNat}")

/-- The lines that list one node's table. -/
def tableLines (node : (NodeId × FingerTable) × PeerAddress) : List String :=
  s!"Routing table for node {node.1.1.text} ({node.2.text}):" :: node.1.2.listing

/-- Every node's table of the last setup, in hop order. -/
def listTables (r : Registry) : String :=
  match r.overlay with
  | none => "No overlay has been set up"
  | some o => Text.unlines ((o.tables.zip o.participants).flatMap tableLines)

/-- Sends each member its table, together with the identifiers of the whole overlay. -/
def sendManifests (nodeIds : List NodeId) :
    List (Entry × (NodeId × FingerTable)) → Registry → Registry
  | [], r => r
  | (member, (_, table)) :: rest, r =>
    sendManifests nodeIds rest (r.send member.address (.nodeManifest table nodeIds)).1

/-- Lays an overlay over the present membership and sends every member its manifest; tables have
`size` entries, or the configured number.  Says how many nodes the overlay has. -/
def setup (r : Registry) (size : Option Nat) : Registry × Except CommandError Nat :=
  if r.phase.isRun then (r, .error (.runInProgress r.phase))
  else
    let members := r.membership.members
    match Layout.tables members (size.getD r.config.defaultTableSize) with
    | .error e => (r, .error (.overlay e))
    | .ok tables =>
      let r := sendManifests r.membership.ids (members.zip tables) r
      let r := { r with
        overlay := some ⟨tables, members.map Entry.address⟩
        progress := { Progress.zero with expected := members.length } }
      (r.setPhase .awaitingSetup, .ok members.length)

/-- Has every participant originate `count` packets.  Says how many were told. -/
def start (r : Registry) (count : UInt32) : Registry × Except CommandError Nat :=
  if maxCount < count then (r, .error (.countTooLarge count))
  else
    match r.phase with
    | .idle => (r, .error .notSetUp)
    | .awaitingSetup =>
      (r, .error (.setupIncomplete r.progress.established r.progress.failed r.progress.expected))
    | .ready =>
      let (r, nodes) := r.broadcast (.taskInitiate count)
      if nodes = 0 then (r, .error .noNodesReached)
      else
        let r := { r with
          progress := { r.progress with expected := nodes, finished := 0 }
          collector := .empty }
        (r.setPhase .running, .ok nodes)
    | p => (r, .error (.runInProgress p))

end RingOverlay.Registry
