import Mathlib.Data.String.Basic
import RingOverlay.Proofs.Address.RoundTrip

/-!
# Address — how long an IP literal is

Whoever dials in chooses the host that it claims, but a host that matches where a connection comes
from is the literal of an IP address, and those are short.  Every character that is read takes one
byte; a part of an IPv4 address has three at most, and a group of an IPv6 address four.  The reading
drops nothing: its parts are the text once more with the colons put back (`intercalate_parts`), and
a double colon stands between what is before and after it (`eq_of_cutAtGap`).

* `Ipv6.utf8Len_of_groups?`: every group takes five bytes with its colon, and an IPv4 address at the
  end five more than the two groups that it stands for.
* `Ip.utf8ByteSize_of_parse?`: **an IP literal has 45 bytes at most.**
-/

namespace RingOverlay

open String (utf8Len utf8Len_nil utf8Len_cons utf8Len_append)

variable {s before after : List Char} {c : Char}

/-- Characters of one byte each. -/
theorem utf8Len_eq_length (h : ∀ c ∈ s, c.toNat ≤ 127) : utf8Len s = s.length := by
  induction s with
  | nil => rfl
  | cons c s ih =>
    obtain ⟨hc, hs⟩ := List.forall_mem_cons.mp h
    have hsize : c.utf8Size = 1 := Char.utf8Size_eq_one_iff.mpr hc
    rw [utf8Len_cons, ih hs, hsize, List.length_cons]

/-! ### IPv4 -/

namespace Ipv4

theorem utf8Len_decimal (o : UInt8) : utf8Len (Text.decimal o.toNat) ≤ 3 := by
  have hdigits : ∀ c ∈ Text.decimal o.toNat, c.toNat ≤ 127 := fun c hc =>
    Nat.le_trans (Char.isDigit_iff_toNat.mp (Text.isDigit_of_mem_decimal hc)).2 (by decide)
  rw [utf8Len_eq_length hdigits]
  exact length_decimal o

/-- Four parts of three digits, and three points. -/
theorem utf8Len_chars (a : Ipv4) : utf8Len a.chars ≤ 15 := by
  obtain ⟨w, x, y, z, h⟩ := a.exists_chars_eq
  have hw := utf8Len_decimal w
  have hx := utf8Len_decimal x
  have hy := utf8Len_decimal y
  have hz := utf8Len_decimal z
  have hpoint : '.'.utf8Size = 1 := rfl
  rw [h]
  simp only [utf8Len_append, utf8Len_cons, hpoint]
  omega

theorem length_asGroups (a : Ipv4) : a.asGroups.length = 2 := by
  obtain ⟨octets, hlength⟩ := a
  obtain ⟨w, x, y, z, rfl⟩ := List.length_eq_four.mp hlength
  rfl

end Ipv4

/-! ### IPv6 -/

namespace Ipv6

variable {ss : List (List Char)} {gs : List UInt16} {g : UInt16}

theorem toNat_of_hexDigit? {d : Nat} (h : hexDigit? c = some d) : c.toNat ≤ 127 := by
  unfold hexDigit? at h
  split at h
  · next hc => exact Nat.le_trans hc.2 (by decide)
  · split at h
    · next hc => exact Nat.le_trans hc.2 (by decide)
    · split at h
      · next hc => exact Nat.le_trans hc.2 (by decide)
      · cases h

theorem toNat_of_hexDigits? {digits : List Nat} (h : s.mapM hexDigit? = some digits) :
    ∀ c ∈ s, c.toNat ≤ 127 := by
  induction s generalizing digits with
  | nil => exact List.forall_mem_nil _
  | cons c s ih =>
    rw [List.mapM_cons] at h
    obtain ⟨d, hd, h⟩ := Option.bind_eq_some_iff.mp h
    obtain ⟨ds, hds, -⟩ := Option.bind_eq_some_iff.mp h
    exact List.forall_mem_cons.mpr ⟨toNat_of_hexDigit? hd, ih hds⟩

theorem utf8Len_of_group? (h : group? s = some g) : utf8Len s ≤ 4 := by
  unfold group? at h
  split at h
  · next hs =>
    obtain ⟨digits, hdigits, -⟩ := Option.bind_eq_some_iff.mp h
    rw [utf8Len_eq_length (toNat_of_hexDigits? hdigits)]
    exact hs.2
  · cases h

/-- One more group in front takes at most its four digits and a colon. -/
theorem utf8Len_join_cons (h : group? s = some g) (ss : List (List Char)) :
    utf8Len ([':'].intercalate (s :: ss)) ≤ 5 + utf8Len ([':'].intercalate ss) := by
  have hs := utf8Len_of_group? h
  have hcolon : ':'.utf8Size = 1 := rfl
  cases ss with
  | nil =>
    rw [List.intercalate_singleton]
    omega
  | cons t ss =>
    rw [List.intercalate_cons_cons]
    simp only [utf8Len_append, utf8Len_cons, utf8Len_nil, hcolon]
    omega

theorem utf8Len_of_mapM_group? (h : ss.mapM group? = some gs) :
    utf8Len ([':'].intercalate ss) ≤ 5 * gs.length := by
  induction ss generalizing gs with
  | nil => exact Nat.zero_le _
  | cons s ss ih =>
    rw [List.mapM_cons] at h
    obtain ⟨g, hg, h⟩ := Option.bind_eq_some_iff.mp h
    obtain ⟨gs, hgs, h⟩ := Option.bind_eq_some_iff.mp h
    cases h
    have hjoin := utf8Len_join_cons hg ss
    have hrest := ih hgs
    rw [List.length_cons]
    omega

/-- **Groups take five bytes each**, and an IPv4 address at the end five more than its two groups. -/
theorem utf8Len_of_groups? (h : groups? ss = some gs) :
    utf8Len ([':'].intercalate ss) ≤ 5 * gs.length + 5 := by
  induction ss using groups?.induct generalizing gs with
  | case1 => exact Nat.zero_le _
  | case2 last a ha =>
    simp only [groups?, ha] at h
    cases h
    rw [List.intercalate_singleton, ← Ipv4.chars_of_parse? ha, a.length_asGroups]
    exact a.utf8Len_chars
  | case3 last hno =>
    simp only [groups?, hno] at h
    obtain ⟨g, hg, rfl⟩ := Option.map_eq_some_iff.mp h
    rw [List.intercalate_singleton]
    exact Nat.le_trans (utf8Len_of_group? hg) (Nat.le_add_left 4 _)
  | case4 s ss hne ih =>
    rw [groups?] at h
    · obtain ⟨g, hg, h⟩ := Option.bind_eq_some_iff.mp h
      obtain ⟨gs, hgs, h⟩ := Option.bind_eq_some_iff.mp h
      cases h
      have hjoin := utf8Len_join_cons hg ss
      have hrest := ih hgs
      rw [List.length_cons]
      omega
    · exact hne

/-- The parts with the colons put back. -/
theorem intercalate_parts (s : List Char) : [':'].intercalate (parts s) = s := by
  unfold parts
  split
  · next h => rw [h]; rfl
  · exact List.intercalate_splitOn ':'

theorem eq_of_cutAtGap (h : cutAtGap s = some (before, after)) :
    s = before ++ ':' :: ':' :: after := by
  induction s using cutAtGap.induct generalizing before after with
  | case1 rest =>
    cases h
    rfl
  | case2 c rest hc ih =>
    rw [cutAtGap] at h
    · obtain ⟨⟨before', after'⟩, hcut, heq⟩ := Option.map_eq_some_iff.mp h
      cases heq
      rw [ih hcut, List.cons_append]
    · exact hc
  | case3 => cases h

/-- **The text of an IPv6 address has 45 bytes at most**, which six groups and an IPv4 address
take. -/
theorem utf8Len_of_parse? {a : Ipv6} (h : parse? s = some a) : utf8Len s ≤ 45 := by
  unfold parse? at h
  split at h
  · obtain ⟨gs, hgs, h⟩ := Option.bind_eq_some_iff.mp h
    have hbound := utf8Len_of_groups? hgs
    rw [intercalate_parts] at hbound
    split at h
    · omega
    · cases h
  · next before after hcut =>
    obtain ⟨front, hfront, h⟩ := Option.bind_eq_some_iff.mp h
    obtain ⟨back, hback, h⟩ := Option.bind_eq_some_iff.mp h
    have hbefore := utf8Len_of_mapM_group? hfront
    have hafter := utf8Len_of_groups? hback
    have hcolon : ':'.utf8Size = 1 := rfl
    rw [intercalate_parts] at hbefore hafter
    rw [eq_of_cutAtGap hcut, utf8Len_append, utf8Len_cons, utf8Len_cons, hcolon]
    split at h
    · -- beside a double colon there are seven groups at most, so 42 bytes would do
      omega
    · cases h

end Ipv6

/-! ### Both families -/

/-- **An IP literal has 45 bytes at most.** -/
theorem Ip.utf8ByteSize_of_parse? {s : String} {a : Ip} (h : Ip.parse? s = some a) :
    s.utf8ByteSize ≤ 45 := by
  have hbytes : s.utf8ByteSize = utf8Len s.toList := by
    rw [← String.utf8ByteSize_ofList, String.ofList_toList]
  rw [hbytes]
  unfold Ip.parse? at h
  split at h
  · next b hb =>
    rw [← Ipv4.chars_of_parse? hb]
    exact Nat.le_trans b.utf8Len_chars (by decide)
  · obtain ⟨b, hb, -⟩ := Option.map_eq_some_iff.mp h
    exact Ipv6.utf8Len_of_parse? hb

/-- Eight groups, the last two of them as an IPv4 address. -/
def Ip.longestLiteral : String := "ffff:ffff:ffff:ffff:ffff:ffff:255.255.255.255"

/-- No shorter bound would do. -/
example : (Ip.parse? Ip.longestLiteral).isSome ∧ Ip.longestLiteral.utf8ByteSize = 45 := by decide

/-- A host that matches where a connection comes from is an IP literal. -/
theorem PeerAddress.exists_parse?_of_matchesHost {a : PeerAddress} {observed : Ip}
    (h : a.matchesHost observed = true) : ∃ claimed, Ip.parse? a.host = some claimed := by
  unfold matchesHost at h
  split at h
  · next claimed hread => exact ⟨claimed, hread⟩
  · cases h

end RingOverlay
