import RingOverlay.CommandLine.Arguments
import RingOverlay.Link.Fault
import RingOverlay.Registry.Console

/-!
# Command line — the process

A process announces itself, becomes what its arguments say, and hands its input to the console.  It
ends with code 0, with code 1 and a sentence on the error stream if it could not start or its input
was not UTF-8, and with code 2 if the arguments are wrong.  A node needs a registry to dial; here
nothing listens where it dials, so it ends with the fault that the host's network answers with.
-/

namespace RingOverlay.CommandLine

/-- What a process leaves behind. -/
structure Ended where
  code : UInt8
  stdout : List String
  stderr : List String
  /-- The role that logged, and what it logged, oldest first. -/
  logs : List (String × Log.Record)

/-- The name and the version, as every process announces them. -/
def banner : String := "Overlay v0.2.0"

/-- The answer to a request for the version. -/
def versionLine : String := "overlay 0.2.0"

/-- The address a registry listens on; the system picks a port for port zero. -/
def boundTo (config : RegistryConfig) : String :=
  config.listenHost ++ ":" ++ if config.port = 0 then "PORT" else toString config.port.toNat

/-- The lines that a registry has printed, oldest first. -/
def printedBy (r : Registry) : List String :=
  r.effects.reverse.filterMap fun
    | .printed line => some line
    | _ => none

/-- What a registry has logged of its own concerns, oldest first. -/
def loggedBy (r : Registry) : List Log.Record :=
  (r.effects.reverse.filterMap fun
    | .logged e => some e.record
    | _ => none).filter fun record => record.target == .registry || record.target == .node

/-- Runs a registry over its input. -/
def runRegistry (log : Bool) (config : RegistryConfig) (input : List UInt8) : Ended :=
  match Registry.listen config (.ofList []) (boundTo config) with
  | .error e => ⟨1, [banner], [e.message], []⟩
  | .ok r =>
    let (r, utf8) := r.console input
    let stdout := banner :: s!"Registry is listening on {boundTo config}" :: printedBy r
    let logs := if log then (loggedBy r).map fun record => ("registry", record) else []
    if utf8 then ⟨0, stdout, [], logs⟩
    else ⟨1, stdout, ["I/O error: stream did not contain valid UTF-8"], logs⟩

/-- Runs a node whose registry cannot be dialed. -/
def runNode (network : Network) (registry : PeerAddress) : Ended :=
  ⟨1, [banner],
    [s!"Could not reach the registry at {registry.text}: " ++ network.vainDial.message], []⟩

/-- Runs the process that arguments describe over its input, on a host that is on `network`. -/
def run (network : Network) (args : List String) (input : List UInt8) : Ended :=
  match parse args with
  | .error .wrong => ⟨2, [banner], [], []⟩
  | .error .help => ⟨0, [banner], [], []⟩
  | .error .version => ⟨0, [banner, versionLine], [], []⟩
  | .ok ⟨log, .registry port ringSize tableSize quiescence⟩ =>
    let config : RegistryConfig := {
      port := port
      ringSize := ringSize
      defaultTableSize := tableSize
      quiescence := quiescence }
    runRegistry log config input
  | .ok ⟨_, .node host port⟩ => runNode network ⟨host, port⟩

end RingOverlay.CommandLine
