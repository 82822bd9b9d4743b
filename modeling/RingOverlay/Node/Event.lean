import RingOverlay.Log
import RingOverlay.Message.Basic

/-!
# Node — states and what a node logs

Where a node is in joining the overlay, every event it logs, and the record of each event.
-/

namespace RingOverlay

/-- Where a node is in joining the overlay. -/
inductive NodeState where
  | unregistered
  | registered
  | manifestReceived
  | connectionsEstablished
  | connectionsFailed
  /-- The outcome of the setup has been sent to the registry. -/
  | setupReported (established : Bool)
  deriving DecidableEq, Repr

namespace NodeState

/-- The text of a state; the last one shows its field between braces. -/
def text : NodeState → String
  | unregistered => "Unregistered"
  | registered => "Registered"
  | manifestReceived => "ManifestReceived"
  | connectionsEstablished => "ConnectionsEstablished"
  | connectionsFailed => "ConnectionsFailed"
  | setupReported established => s!"SetupReported \x7b established: {established} \x7d"

end NodeState

/-- What became of a packet at a node. -/
inductive Fate where
  | originated
  | relayed
  | delivered
  | dropped
  deriving DecidableEq, Repr

/-- The name of a fate. -/
def Fate.name : Fate → String
  | originated => "originated"
  | relayed => "relayed"
  | delivered => "delivered"
  | dropped => "dropped"

/-- What a node logs. -/
inductive NodeEvent where
  /-- Something happened in a state. -/
  | state (id : Option NodeId) (state : NodeState) (note : String)
  | badIdAssigned (error : String)
  | fingerUnreached (address : PeerAddress) (error : String)
  | registryUnreached (kind : Kind) (error : String)
  | askedToSendUnregistered
  | packetUnregistered
  | askedToSummariseUnregistered
  | summaryUnsent (error : String)
  | noRoute (dst : NodeId)
  | noConnection (dst : NodeId) (next : PeerAddress)
  /-- What became of a packet, and how many hops it had taken. -/
  | packet (node : NodeId) (fate : Fate) (src dst : NodeId) (payload : Int32) (hops : Nat)
  | unexpectedMessage (kind : Kind) (peer : String)
  deriving DecidableEq, Repr

namespace NodeEvent

open Log

/-- A warning of a node. -/
def warning (message : String) (fields : List (String × Value)) : Record :=
  ⟨.warn, .node, fields ++ [("message", .text message)]⟩

/-- The record of an event. -/
def record : NodeEvent → Record
  | state id s note =>
    ⟨.info, .node,
      idField? "id" (id.map Fin.val) ++ [("state", .text s.text), ("message", .text note)]⟩
  | badIdAssigned error => warning "registry assigned a bad ID" [("error", .text error)]
  | fingerUnreached address error =>
    warning "could not reach finger" [("address", .text address.text), ("error", .text error)]
  | registryUnreached kind error =>
    warning "could not reach the registry" [("kind", .text kind.name), ("error", .text error)]
  | askedToSendUnregistered => warning "asked to send before registering" []
  | packetUnregistered => warning "dropping a packet received before registering" []
  | askedToSummariseUnregistered => warning "asked for a traffic summary before registering" []
  | summaryUnsent error => warning "could not report traffic summary" [("error", .text error)]
  | noRoute dst =>
    ⟨.warn, .packet, [("dst", .number dst.val), ("message", .text "no route")]⟩
  | noConnection dst next =>
    ⟨.warn, .packet,
      [("dst", .number dst.val), ("next", .text next.text),
        ("message", .text "no connection to the next hop")]⟩
  | packet node fate src dst payload hops =>
    ⟨.debug, .packet,
      [("node", .number node.val), ("action", .text fate.name), ("src", .number src.val),
        ("dst", .number dst.val), ("payload", .number payload.toInt), ("hops", .number hops)]⟩
  | unexpectedMessage kind peer =>
    warning "unexpected message" [("kind", .text kind.name), ("peer", .text peer)]

end NodeEvent

end RingOverlay
