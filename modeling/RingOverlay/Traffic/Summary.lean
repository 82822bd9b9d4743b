import RingOverlay.Ring.Id

/-!
# Traffic — summaries

A summary is one node's account of a run: how many packets it sent, relayed and received, and the
sums of the payloads it sent and received.
-/

namespace RingOverlay

/-- The largest packet count that a message can carry. -/
def maxCount : UInt32 := 0x7FFFFFFF

/-- A node's account of a run. -/
structure Summary where
  id : NodeId
  sent : UInt32
  relayed : UInt32
  sentSum : Int64
  received : UInt32
  receivedSum : Int64
  deriving DecidableEq, Repr

end RingOverlay
