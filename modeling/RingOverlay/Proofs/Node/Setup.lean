import RingOverlay.Node.Handlers

/-!
# Node — the stages of joining and of a setup

A node that joins is not connected to anybody at first; it dials its registry and asks to register
(`join_eq`).  A setup has two stages, and anything may happen to the node between them: it takes up
a manifest, and it dials and reports when the dials have ended.  What holds of each stage so holds
of a manifest that is handled with nothing in between (`handle_manifest`).
-/

namespace RingOverlay

/-- Whether a setup is established: the node had an identifier when it took the manifest up, and
every dial succeeds. -/
def Setup.established (s : Setup) (reaches : PeerAddress → Bool) : Bool :=
  s.id.isSome && s.dials.all reaches

namespace Node

/-! ### Joining -/

/-- A node that is not connected to anybody yet. -/
def unconnected (config : NodeConfig) (address : PeerAddress) : Node where
  config := config
  address := address
  cache := .empty
  links := .empty
  topology := .none
  counters := .zero
  state := .unregistered
  setups := []
  effects := []

theorem join_eq (config : NodeConfig) (address : PeerAddress) :
    join config address =
      (((unconnected config address).dial config.registry).sendToRegistry
        (.nodeRegisters address)).log (.state none .unregistered "registration requested") :=
  rfl

/-! ### Taking up a manifest -/

/-- The addresses of the fingers that the node has no live connection to. -/
def missing (n : Node) (table : FingerTable) : List PeerAddress :=
  (fingerAddresses table).filter fun a => (n.live? a).isNone

/-- The setup that a manifest begins. -/
def setup (n : Node) (link : LinkId) (table : FingerTable) : Setup :=
  ⟨link, n.topology.id, (fingerAddresses table).length, n.missing table⟩

/-- The node knows an overlay, and has not dialed anybody of it yet. -/
def learn (n : Node) (table : FingerTable) (nodeIds : List NodeId) : Node :=
  { n with topology := ⟨n.topology.id, table, nodeIds⟩ }.setState .manifestReceived
    "manifest received"

theorem takeUp_eq (n : Node) (link : LinkId) (table : FingerTable) (nodeIds : List NodeId) :
    n.takeUp link table nodeIds =
      { n.learn table nodeIds with setups := n.setups ++ [n.setup link table] } :=
  rfl

/-- The setup that has just begun is the last one under way. -/
theorem setups_takeUp (n : Node) (link : LinkId) (table : FingerTable) (nodeIds : List NodeId) :
    (n.takeUp link table nodeIds).setups[n.setups.length]? = some (n.setup link table) ∧
    (n.takeUp link table nodeIds).setups.eraseIdx n.setups.length = n.setups := by
  refine ⟨List.getElem?_concat_length, ?_⟩
  rw [takeUp_eq, List.eraseIdx_append_of_length_le (Nat.le_refl _), Nat.sub_self]
  exact List.append_nil _

/-! ### Dialing -/

/-- What holds of one dial, made or refused, holds of all the dials of a setup, if it adds up. -/
theorem dialEach_induction {R : Node → Node → Prop} (hrefl : ∀ n, R n n)
    (htrans : ∀ {n n' n''}, R n n' → R n' n'' → R n n'') (hdial : ∀ n a, R n (n.dial a))
    (hrefused : ∀ n a, R n (n.log (.fingerUnreached a (refusedDial a))))
    (reaches : PeerAddress → Bool) (as : List PeerAddress) (n : Node) :
    R n (dialEach reaches as n).1 := by
  induction as generalizing n with
  | nil => exact hrefl n
  | cons a as ih =>
    unfold dialEach
    split
    · exact htrans (hdial n a) (ih (n.dial a))
    · exact htrans (hrefused n a) (ih _)

/-! ### Reporting a setup -/

/-- The node is connected to its fingers or not, and has not reported it yet. -/
def connect (n : Node) (outcome : Int32 × String) : Node :=
  n.setState (if outcome.1 != failureStatus then .connectionsEstablished else .connectionsFailed)
    outcome.2

theorem reportSetup_eq (n : Node) (outcome : Int32 × String) :
    n.reportSetup outcome =
      ((n.connect outcome).sendToRegistry (.overlaySetupStatus outcome.1 outcome.2)).setState
        (.setupReported (outcome.1 != failureStatus)) "setup reported" :=
  rfl

variable {n : Node} {k : Nat} {s : Setup}

/-- The node without its `k`-th setup, connected as far as its dials have led. -/
def dialed (n : Node) (reaches : PeerAddress → Bool) (k : Nat) (s : Setup) : Node × List String :=
  dialEach reaches s.dials { n with setups := n.setups.eraseIdx k }

theorem finishSetup_of_some (h : n.setups[k]? = some s) (reaches : PeerAddress → Bool) :
    n.finishSetup reaches k = (n.dialed reaches k s).1.reportSetup
      (setupOutcome s.id s.fingers (n.dialed reaches k s).2) := by
  simp only [finishSetup, h]
  rfl

theorem finishSetup_of_none (h : n.setups[k]? = none) (reaches : PeerAddress → Bool) :
    n.finishSetup reaches k = n := by
  simp only [finishSetup, h]

/-- A manifest is handled with nothing in between. -/
theorem handle_manifest (n : Node) (reaches : PeerAddress → Bool) (draws : Draws) (link : LinkId)
    (far : Endpoint) (table : FingerTable) (nodeIds : List NodeId) :
    n.handle reaches draws link far (.nodeManifest table nodeIds) =
      (dialEach reaches (n.missing table) (n.learn table nodeIds)).1.reportSetup
        (setupOutcome n.topology.id (fingerAddresses table).length
          (dialEach reaches (n.missing table) (n.learn table nodeIds)).2) := by
  obtain ⟨hlast, herase⟩ := n.setups_takeUp link table nodeIds
  have hdialed : (n.takeUp link table nodeIds).dialed reaches n.setups.length
      (n.setup link table) = dialEach reaches (n.missing table) (n.learn table nodeIds) := by
    rw [dialed, herase]
    rfl
  change (n.takeUp link table nodeIds).finishSetup reaches n.setups.length = _
  rw [finishSetup_of_some hlast, hdialed]
  rfl

/-! ### Outcomes -/

/-- The status that is reported of a setup: the node's identifier, if it is established. -/
def setupStatus (id : Option NodeId) (established : Bool) : Int32 :=
  if established then (id.map NodeId.status).getD failureStatus else failureStatus

/-- A status that stands for an identifier is no failure. -/
theorem status_ne_failure (id : NodeId) : id.status ≠ failureStatus := by
  revert id
  decide

/-- The outcome of a setup, by whether there are an identifier and no failures. -/
theorem setupOutcome_fst (id : Option NodeId) (fingers : Nat) (failures : List String) :
    ((setupOutcome id fingers failures).1 != failureStatus) = (id.isSome && failures.isEmpty) ∧
    (setupOutcome id fingers failures).1 = setupStatus id (id.isSome && failures.isEmpty) := by
  cases id with
  | none => exact ⟨rfl, rfl⟩
  | some id =>
    cases failures with
    | nil => exact ⟨bne_iff_ne.mpr (status_ne_failure id), rfl⟩
    | cons failure failures => exact ⟨rfl, rfl⟩

end Node

end RingOverlay
