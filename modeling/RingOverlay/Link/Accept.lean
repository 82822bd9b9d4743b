import RingOverlay.Link.Fault
import RingOverlay.Message.Frame

/-!
# Link — a client at the accept loop

A server accepts one client, takes in the messages of its stream in order and sends each of them
back.  The client writes its stream in chunks; where they are cut makes no difference.  Whether the
client gets through to the server at all is up to the network between them.
-/

namespace RingOverlay.Accept

/-- What the server saw of a client. -/
structure Transcript where
  received : List Message
  /-- The fault that ended the stream, if it did not end cleanly. -/
  faults : List String

/-- What the server sees of a client that writes `chunks` and then ends its stream. -/
def serve (limit : Nat) (chunks : List (List UInt8)) : Transcript :=
  let (received, ending) := Frame.receive limit chunks.flatten
  ⟨received, ending.message?.toList⟩

/-- A client dials the server and writes `chunks`. -/
def session (network : Network) (limit : Nat) (chunks : List (List UInt8)) :
    Except NetworkFault Transcript :=
  match network.dial with
  | .ok () => .ok (serve limit chunks)
  | .error fault => .error fault

end RingOverlay.Accept
