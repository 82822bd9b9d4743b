/-!
# Link — dials and their faults

A dial fails for a reason that the operating system names by a number: nothing listens at the
address, or the host has no route to it.  A fault can be shown in a sentence, or in detail.
-/

namespace RingOverlay

/-- A fault that the operating system reports. -/
structure NetworkFault where
  code : Nat
  kind : String
  text : String
  deriving DecidableEq, Repr

namespace NetworkFault

/-- Nothing listens at the address. -/
def connectionRefused : NetworkFault := ⟨111, "ConnectionRefused", "Connection refused"⟩

/-- The host has no route to the address. -/
def networkUnreachable : NetworkFault := ⟨101, "NetworkUnreachable", "Network is unreachable"⟩

/-- The fault in a sentence. -/
def message (f : NetworkFault) : String := s!"{f.text} (os error {f.code})"

/-- The fault in detail. -/
def detail (f : NetworkFault) : String :=
  s!"Os \x7b code: {f.code}, kind: {f.kind}, message: \"{f.text}\" \x7d"

end NetworkFault

/-- The network that a host is on. -/
inductive Network where
  | up
  /-- The host has no route to anywhere. -/
  | unreachable
  deriving DecidableEq, Repr

namespace Network

/-- What a dial to a listening address comes to. -/
def dial : Network → Except NetworkFault Unit
  | up => .ok ()
  | unreachable => .error .networkUnreachable

/-- The fault that a dial meets at an address where nothing listens. -/
def vainDial : Network → NetworkFault
  | up => .connectionRefused
  | unreachable => .networkUnreachable

end Network

end RingOverlay
