/-!
# Address — IP addresses

An `Ip` is four octets or eight 16-bit groups, most significant first.  A listener that serves both
families sees an IPv4 peer under an IPv4-mapped IPv6 address; `Ip.canonical` folds that form back,
so that the two denote the same host.
-/

namespace RingOverlay

/-- An IPv4 address. -/
structure Ipv4 where
  octets : List UInt8
  length_octets : octets.length = 4
  deriving DecidableEq, Repr

/-- An IPv6 address. -/
structure Ipv6 where
  groups : List UInt16
  length_groups : groups.length = 8
  deriving DecidableEq, Repr

/-- An IP address of either family. -/
inductive Ip where
  | v4 (address : Ipv4)
  | v6 (address : Ipv6)
  deriving DecidableEq, Repr

namespace Ipv4

/-- The two 16-bit groups that carry an IPv4 address inside an IPv6 address. -/
def asGroups (a : Ipv4) : List UInt16 :=
  match a.octets with
  | [w, x, y, z] => [w.toUInt16 * 256 + x.toUInt16, y.toUInt16 * 256 + z.toUInt16]
  | _ => []

/-- The IPv4 address carried by two 16-bit groups. -/
def ofGroups (g h : UInt16) : Ipv4 :=
  ⟨[(g / 256).toUInt8, g.toUInt8, (h / 256).toUInt8, h.toUInt8], rfl⟩

end Ipv4

namespace Ipv6

/-- The IPv4 address that an IPv4-mapped address stands for. -/
def mapped? (a : Ipv6) : Option Ipv4 :=
  match a.groups with
  | [0, 0, 0, 0, 0, 0xFFFF, g, h] => some (.ofGroups g h)
  | _ => none

end Ipv6

namespace Ip

/-- The address with an IPv4-mapped form folded back to IPv4. -/
def canonical : Ip → Ip
  | .v4 a => .v4 a
  | .v6 a =>
    match a.mapped? with
    | some b => .v4 b
    | none => .v6 a

/-- The IPv4 loopback address. -/
def loopback : Ip := .v4 ⟨[127, 0, 0, 1], rfl⟩

end Ip

end RingOverlay
