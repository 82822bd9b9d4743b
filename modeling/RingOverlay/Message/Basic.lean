import RingOverlay.Finger.Table
import RingOverlay.Traffic.Summary

/-!
# Message — the messages of the overlay

The registry and the nodes exchange eleven kinds of messages, each known by a numeric tag.  Packet
counts travel as non-negative 32-bit integers, so a count above `maxCount` arrives as `maxCount`:
`Message.clamp` is the message that arrives.
-/

namespace RingOverlay

/-- The kinds of messages. -/
inductive Kind where
  | nodeRegisters
  | registrationStatus
  | nodeDeregisters
  | deregistrationStatus
  | nodeManifest
  | overlaySetupStatus
  | taskInitiate
  | dataPacket
  | taskFinished
  | trafficSummaryRequest
  | trafficSummaryReport
  deriving DecidableEq, Repr

namespace Kind

/-- The tag that stands for a kind. -/
def tag : Kind → Int32
  | nodeRegisters => 2
  | registrationStatus => 3
  | nodeDeregisters => 4
  | deregistrationStatus => 5
  | nodeManifest => 6
  | overlaySetupStatus => 7
  | taskInitiate => 8
  | dataPacket => 9
  | taskFinished => 10
  | trafficSummaryRequest => 11
  | trafficSummaryReport => 12

/-- Every kind, in the order of the tags. -/
def all : List Kind :=
  [nodeRegisters, registrationStatus, nodeDeregisters, deregistrationStatus, nodeManifest,
    overlaySetupStatus, taskInitiate, dataPacket, taskFinished, trafficSummaryRequest,
    trafficSummaryReport]

/-- The kind that a tag stands for. -/
def ofTag? (n : Int32) : Option Kind := all.find? (·.tag == n)

/-- The name of a kind. -/
def name : Kind → String
  | nodeRegisters => "NodeRegisters"
  | registrationStatus => "RegistrationStatus"
  | nodeDeregisters => "NodeDeregisters"
  | deregistrationStatus => "DeregistrationStatus"
  | nodeManifest => "NodeManifest"
  | overlaySetupStatus => "OverlaySetupStatus"
  | taskInitiate => "TaskInitiate"
  | dataPacket => "DataPacket"
  | taskFinished => "TaskFinished"
  | trafficSummaryRequest => "TrafficSummaryRequest"
  | trafficSummaryReport => "TrafficSummaryReport"

end Kind

/-- A data packet on its way: the nodes that relayed it are on its trace, oldest first. -/
structure Packet where
  dst : NodeId
  src : NodeId
  payload : Int32
  trace : List NodeId
  deriving DecidableEq, Repr

/-- A message. -/
inductive Message where
  /-- A node asks to join, saying where it listens. -/
  | nodeRegisters (address : PeerAddress)
  /-- The answer: the assigned identifier, or a negative status. -/
  | registrationStatus (status : Int32) (info : String)
  /-- A node asks to leave. -/
  | nodeDeregisters (address : PeerAddress) (id : NodeId)
  /-- The answer: the removed identifier, or a negative status. -/
  | deregistrationStatus (status : Int32) (info : String)
  /-- A node's finger table, and the identifiers of the whole overlay. -/
  | nodeManifest (table : FingerTable) (nodeIds : List NodeId)
  /-- The reporting node's identifier if it reached its fingers, else a negative status. -/
  | overlaySetupStatus (status : Int32) (info : String)
  /-- The node is to originate `count` packets. -/
  | taskInitiate (count : UInt32)
  | dataPacket (packet : Packet)
  /-- The node has originated all its packets. -/
  | taskFinished (address : PeerAddress) (id : NodeId)
  | trafficSummaryRequest
  | trafficSummaryReport (summary : Summary)
  deriving DecidableEq

/-- The status of a refusal. -/
def failureStatus : Int32 := -1

namespace Message

/-- The kind of a message. -/
def kind : Message → Kind
  | nodeRegisters .. => .nodeRegisters
  | registrationStatus .. => .registrationStatus
  | nodeDeregisters .. => .nodeDeregisters
  | deregistrationStatus .. => .deregistrationStatus
  | nodeManifest .. => .nodeManifest
  | overlaySetupStatus .. => .overlaySetupStatus
  | taskInitiate .. => .taskInitiate
  | dataPacket .. => .dataPacket
  | taskFinished .. => .taskFinished
  | trafficSummaryRequest => .trafficSummaryRequest
  | trafficSummaryReport .. => .trafficSummaryReport

/-- A packet count as it arrives. -/
def clampCount (n : UInt32) : UInt32 := min n maxCount

/-- The message as it arrives, with its packet counts cut to what the wire carries. -/
def clamp : Message → Message
  | taskInitiate count => taskInitiate (clampCount count)
  | trafficSummaryReport s =>
    trafficSummaryReport { s with
      sent := clampCount s.sent
      relayed := clampCount s.relayed
      received := clampCount s.received }
  | m => m

end Message

end RingOverlay
