import RingOverlay.Proofs.Address.RoundTrip

/-!
# Address — IPv4 addresses inside IPv6

An IPv6 address is sixteen octets.  Those of `::ffff:0:0/96` end in the four octets of an IPv4
address, which they *carry* (`Ipv6.Carries`), and stand for the same host.  Each carries one address,
and each IPv4 address is carried by one (`Ipv6.mapped?_eq_some_iff`, `Ipv6.eq_of_mapped?`), so that
folding the carried address back tells hosts apart (`Ip.canonical_eq_iff`).

* `PeerAddress.ofSocket_matchesHost_iff`: **a listener's own address matches the IP addresses of its
  own host, and no other.**
-/

namespace RingOverlay

namespace Ipv6

/-- The sixteen octets of an address, most significant first. -/
def octets (a : Ipv6) : List UInt8 := a.groups.flatMap fun g => [(g / 256).toUInt8, g.toUInt8]

/-- The address is of `::ffff:0:0/96`, with the octets of an IPv4 address at the end. -/
def Carries (a : Ipv6) (b : Ipv4) : Prop :=
  a.octets = List.replicate 10 0 ++ [255, 255] ++ b.octets

instance (a : Ipv6) (b : Ipv4) : Decidable (a.Carries b) := inferInstanceAs (Decidable (_ = _))

theorem group_eq_of_octets {g h : UInt16} (hhigh : (g / 256).toUInt8 = (h / 256).toUInt8)
    (hlow : g.toUInt8 = h.toUInt8) : g = h := by
  rw [← Ipv4.group_of_octets g, ← Ipv4.group_of_octets h, hhigh, hlow]

variable {a b : Ipv6} {c : Ipv4}

/-- The address that is folded back is the one that is carried. -/
theorem mapped?_eq_some_iff : a.mapped? = some c ↔ a.Carries c := by
  constructor
  · intro h
    unfold mapped? at h
    split at h
    · next g k hgroups =>
      cases h
      unfold Carries octets
      rw [hgroups]
      rfl
    · cases h
  · intro h
    obtain ⟨gs, hlength⟩ := a
    obtain ⟨os, hos⟩ := c
    match gs, hlength, os, hos with
    | [g₀, g₁, g₂, g₃, g₄, g₅, g, k], _, [w, x, y, z], _ =>
      have hoctets : [(g₀ / 256).toUInt8, g₀.toUInt8, (g₁ / 256).toUInt8, g₁.toUInt8,
          (g₂ / 256).toUInt8, g₂.toUInt8, (g₃ / 256).toUInt8, g₃.toUInt8, (g₄ / 256).toUInt8,
          g₄.toUInt8, (g₅ / 256).toUInt8, g₅.toUInt8, (g / 256).toUInt8, g.toUInt8,
          (k / 256).toUInt8, k.toUInt8] =
          [0, 0, 0, 0, 0, 0, 0, 0, 0, 0, 255, 255, w, x, y, z] := h
      simp only [List.cons.injEq, and_true] at hoctets
      obtain ⟨h₀, h₀', h₁, h₁', h₂, h₂', h₃, h₃', h₄, h₄', h₅, h₅', rfl, rfl, rfl, rfl⟩ := hoctets
      obtain rfl : g₀ = 0 := group_eq_of_octets h₀ h₀'
      obtain rfl : g₁ = 0 := group_eq_of_octets h₁ h₁'
      obtain rfl : g₂ = 0 := group_eq_of_octets h₂ h₂'
      obtain rfl : g₃ = 0 := group_eq_of_octets h₃ h₃'
      obtain rfl : g₄ = 0 := group_eq_of_octets h₄ h₄'
      obtain rfl : g₅ = 0xFFFF := group_eq_of_octets h₅ h₅'
      rfl

/-- No two addresses carry the same one. -/
theorem eq_of_mapped? (ha : a.mapped? = some c) (hb : b.mapped? = some c) : a = b := by
  obtain ⟨gs, hlength⟩ := a
  obtain ⟨hs, hlength'⟩ := b
  obtain rfl : gs = hs := (groups_of_mapped? ha).trans (groups_of_mapped? hb).symm
  rfl

end Ipv6

namespace Ip

/-- Two IP addresses are of one host: they are the same, or one carries the other. -/
def SameHost (a b : Ip) : Prop :=
  a = b ∨ ∃ x y, Ipv6.Carries y x ∧ (a = .v4 x ∧ b = .v6 y ∨ a = .v6 y ∧ b = .v4 x)

theorem canonical_of_mapped {a : Ipv6} {b : Ipv4} (h : a.mapped? = some b) :
    canonical (.v6 a) = .v4 b := by
  simp only [canonical, h]

theorem canonical_of_unmapped {a : Ipv6} (h : a.mapped? = none) : canonical (.v6 a) = .v6 a := by
  simp only [canonical, h]

/-- An IPv4 and an IPv6 address are folded to one if the one carries the other. -/
theorem canonical_v6_eq_v4_iff {x : Ipv4} {y : Ipv6} :
    canonical (.v6 y) = .v4 x ↔ y.Carries x := by
  rw [← Ipv6.mapped?_eq_some_iff]
  cases h : y.mapped? with
  | none =>
    rw [canonical_of_unmapped h]
    exact iff_of_false nofun nofun
  | some z =>
    rw [canonical_of_mapped h, v4.injEq, Option.some_inj]

/-- **What is folded to one address is one host.** -/
theorem canonical_eq_iff (a b : Ip) : a.canonical = b.canonical ↔ SameHost a b := by
  constructor
  · intro h
    match a, b with
    | .v4 x, .v4 y => exact .inl h
    | .v4 x, .v6 y => exact .inr ⟨x, y, canonical_v6_eq_v4_iff.mp h.symm, .inl ⟨rfl, rfl⟩⟩
    | .v6 x, .v4 y => exact .inr ⟨y, x, canonical_v6_eq_v4_iff.mp h, .inr ⟨rfl, rfl⟩⟩
    | .v6 x, .v6 y =>
      refine .inl (congrArg v6 ?_)
      cases hx : x.mapped? with
      | none =>
        cases hy : y.mapped? with
        | none =>
          rw [canonical_of_unmapped hx, canonical_of_unmapped hy] at h
          exact v6.inj h
        | some z =>
          rw [canonical_of_unmapped hx, canonical_of_mapped hy] at h
          cases h
      | some z =>
        rw [canonical_of_mapped hx] at h
        exact Ipv6.eq_of_mapped? hx
          (Ipv6.mapped?_eq_some_iff.mpr (canonical_v6_eq_v4_iff.mp h.symm))
  · rintro (rfl | ⟨x, y, hcarries, ⟨rfl, rfl⟩ | ⟨rfl, rfl⟩⟩)
    · rfl
    · exact (canonical_v6_eq_v4_iff.mpr hcarries).symm
    · exact canonical_v6_eq_v4_iff.mpr hcarries

end Ip

namespace PeerAddress

/-- **A listener's own address matches a host just if that host is the listener's**: the two IP
addresses are the same, or one is the IPv4-mapped form of the other, whatever the port. -/
theorem ofSocket_matchesHost_iff (a b : Ip) (port : UInt16) :
    (ofSocket a port).matchesHost b = true ↔ a.SameHost b := by
  unfold matchesHost ofSocket
  rw [a.parse?_text, ← Ip.canonical_eq_iff]
  exact beq_iff_eq

/-- The loopback address and its mapped form match each other, and not another host. -/
theorem ofSocket_matchesHost_iff_loopback :
    let mapped : Ip := .v6 ⟨[0, 0, 0, 0, 0, 0xFFFF, 0x7F00, 1], rfl⟩
    let other : Ip := .v4 ⟨[127, 0, 0, 2], rfl⟩
    (ofSocket mapped 7001).matchesHost .loopback = true ∧
    (ofSocket .loopback 7001).matchesHost mapped = true ∧
    (ofSocket mapped 7001).matchesHost other = false := by
  intro mapped other
  have hcarries : Ipv6.Carries ⟨[0, 0, 0, 0, 0, 0xFFFF, 0x7F00, 1], rfl⟩ ⟨[127, 0, 0, 1], rfl⟩ := by
    decide
  refine ⟨(ofSocket_matchesHost_iff _ _ _).mpr (.inr ⟨_, _, hcarries, .inr ⟨rfl, rfl⟩⟩),
    (ofSocket_matchesHost_iff _ _ _).mpr (.inr ⟨_, _, hcarries, .inl ⟨rfl, rfl⟩⟩),
    Bool.eq_false_iff.mpr fun h => ?_⟩
  rcases (ofSocket_matchesHost_iff _ _ _).mp h with heq | ⟨x, y, hcarried, hboth | hboth⟩
  · exact Ip.noConfusion heq
  · exact Ip.noConfusion hboth.1
  · obtain rfl := Ip.v6.inj hboth.1
    obtain rfl := Ip.v4.inj hboth.2
    exact absurd hcarried (by decide)

end PeerAddress

end RingOverlay
