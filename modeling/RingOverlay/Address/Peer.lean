import RingOverlay.Address.IpText

/-!
# Address — peer addresses

A `PeerAddress` is where a node listens, as it advertises itself to the rest of the overlay.  Its
text form `host:port` identifies the peer: reading it back splits at the last colon, so a host may
itself hold colons, and two different addresses never share a text.

An address *matches* the IP a connection was observed to come from if its host is the literal of
that IP, up to folding IPv4-mapped addresses.  A host that is no IP literal never matches.
-/

namespace RingOverlay

/-- The address a node listens on. -/
structure PeerAddress where
  host : String
  port : UInt16
  deriving DecidableEq, Repr

/-- Why a text is no peer address. -/
inductive AddressError where
  | missingPort
  | missingHost
  | invalidPort
  deriving DecidableEq, Repr

namespace AddressError

/-- The error in words. -/
def message : AddressError → String
  | .missingPort => "Expected an address of the form host:port"
  | .missingHost => "The address has no host part"
  | .invalidPort => "The port is not a number between 0 and 65535"

end AddressError

namespace PeerAddress

/-- The canonical text `host:port`. -/
def text (a : PeerAddress) : String := a.host ++ ":" ++ toString a.port.toNat

/-- What stands before and after the last colon. -/
def splitLastColon : List Char → Option (List Char × List Char)
  | [] => none
  | c :: rest =>
    match splitLastColon rest with
    | some (host, port) => some (c :: host, port)
    | none => if c = ':' then some ([], rest) else none

/-- A port: a numeral below 2¹⁶. -/
def port? (s : List Char) : Option UInt16 :=
  (Text.numeral? UInt16.size s).map UInt16.ofNat

/-- The address that a text denotes.  The host is looked at before the port. -/
def parse (s : String) : Except AddressError PeerAddress :=
  match splitLastColon s.toList with
  | none => .error .missingPort
  | some (host, port) =>
    if host = [] then .error .missingHost
    else
      match port? port with
      | none => .error .invalidPort
      | some p => .ok ⟨String.ofList host, p⟩

/-- The address of a listening socket. -/
def ofSocket (ip : Ip) (port : UInt16) : PeerAddress := ⟨ip.text, port⟩

/-- Whether the address claims the host that its connection was observed to come from. -/
def matchesHost (a : PeerAddress) (observed : Ip) : Bool :=
  match Ip.parse? a.host with
  | some claimed => claimed.canonical == observed.canonical
  | none => false

end PeerAddress

end RingOverlay
