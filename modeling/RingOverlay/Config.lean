import RingOverlay.Address.Peer
import RingOverlay.Message.Frame

/-!
# Config — settings of a registry and of a node

Everything has a default; a setting replaces one field.  Sizes and limits are kept as given: a ring
size that no ring can have is refused only when a registry is opened with it.
-/

namespace RingOverlay

/-- The interface that is listened on by default: every one. -/
def defaultListenHost : String := "0.0.0.0"

/-- The port that a registry listens on by default. -/
def defaultRegistryPort : UInt16 := 5000

/-- The settings of a registry. -/
structure RegistryConfig where
  listenHost : String := defaultListenHost
  /-- The port to listen on; zero lets the system pick one. -/
  port : UInt16 := defaultRegistryPort
  /-- Identifiers are drawn from those below this size. -/
  ringSize : Nat := RingOverlay.ringSize
  /-- The size of finger tables unless a setup names one. -/
  defaultTableSize : Nat := 3
  /-- How long packets may settle before summaries are asked for, in milliseconds. -/
  quiescence : Nat := 5000
  maxFrameLength : Nat := Frame.defaultLimit
  /-- Whether notices are printed. -/
  output : Bool := true
  deriving DecidableEq, Repr

/-- The settings of a node. -/
structure NodeConfig where
  /-- Where the registry listens. -/
  registry : PeerAddress := ⟨"127.0.0.1", defaultRegistryPort⟩
  /-- The interface to listen for peers on; the port is always the system's choice. -/
  listenHost : String := defaultListenHost
  maxFrameLength : Nat := Frame.defaultLimit
  /-- Whether notices are printed. -/
  output : Bool := true
  deriving DecidableEq, Repr

end RingOverlay
