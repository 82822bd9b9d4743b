import RingOverlay.Traffic.Summary
import RingOverlay.Text.Column

/-!
# Traffic — counters

A node counts the packets it sends, receives and relays, and sums the payloads it sends and
receives.  Packet counts stop at `maxCount`, the most a summary can report.  Taking the counters
leaves zeros behind.
-/

namespace RingOverlay

/-- A node's traffic counters. -/
structure Counters where
  sent : UInt32
  received : UInt32
  relayed : UInt32
  sentSum : Int64
  receivedSum : Int64
  deriving DecidableEq, Repr

namespace Counters

/-- Counters that have counted nothing. -/
def zero : Counters := ⟨0, 0, 0, 0, 0⟩

/-- One more, up to `maxCount`. -/
def bump (n : UInt32) : UInt32 := min (n + 1) maxCount

/-- Counts a packet sent with a payload. -/
def recordSent (c : Counters) (payload : Int32) : Counters :=
  { c with sent := bump c.sent, sentSum := c.sentSum + payload.toInt64 }

/-- Counts a packet received with a payload. -/
def recordReceived (c : Counters) (payload : Int32) : Counters :=
  { c with received := bump c.received, receivedSum := c.receivedSum + payload.toInt64 }

/-- Counts a packet relayed. -/
def recordRelayed (c : Counters) : Counters := { c with relayed := bump c.relayed }

/-- The counters, and what is left when they are taken. -/
def take (c : Counters) : Counters × Counters := (c, zero)

/-- The counters as the summary of the node `id`. -/
def summary (c : Counters) (id : NodeId) : Summary :=
  ⟨id, c.sent, c.relayed, c.sentSum, c.received, c.receivedSum⟩

/-- The width of the labels. -/
def labelWidth : Nat := 24

/-- One labelled line. -/
def line (label value : String) : String := Text.padRight labelWidth label ++ value

/-- The five counters, one a line. -/
def text (c : Counters) : String :=
  Text.stack [
    line "Packets sent:" (toString c.sent.toNat),
    line "Packets received:" (toString c.received.toNat),
    line "Packets relayed:" (toString c.relayed.toNat),
    line "Sum of values sent:" (toString c.sentSum.toInt),
    line "Sum of values received:" (toString c.receivedSum.toInt)]

end Counters

end RingOverlay
