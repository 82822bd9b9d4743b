import RingOverlay.Address.Peer
import RingOverlay.Proofs.Text.Numerals

/-!
# Address — one text per IPv4 address

A numeral without needless zeros in front is the decimal text of its value
(`Text.decimal_ofDigitChars`), and the strict reading admits no other.  So an IPv4 address is read
from one text only, its own (`Ipv4.chars_of_parse?`).  Nothing like it holds of IPv6.
-/

namespace RingOverlay

namespace Ipv4

theorem decimal_of_octet? {s : List Char} {o : UInt8} (h : octet? s = some o) :
    Text.decimal o.toNat = s := by
  unfold octet? at h
  split at h
  · next hs =>
    obtain ⟨hne, -, hdigits, hhead, hlt⟩ := hs
    cases h
    rw [UInt8.toNat_ofNat_of_lt' hlt]
    exact Text.decimal_ofDigitChars (List.all_eq_true.mp hdigits) hne hhead
  · cases h

theorem decimals_of_octets? {ss : List (List Char)} {os : List UInt8}
    (h : ss.mapM octet? = some os) : os.map (fun o => Text.decimal o.toNat) = ss := by
  induction ss generalizing os with
  | nil => cases h; rfl
  | cons s ss ih =>
    rw [List.mapM_cons] at h
    obtain ⟨o, ho, h⟩ := Option.bind_eq_some_iff.mp h
    obtain ⟨os', hos, h⟩ := Option.bind_eq_some_iff.mp h
    cases h
    rw [List.map_cons, decimal_of_octet? ho, ih hos]

/-- An IPv4 address is read from its own text only. -/
theorem chars_of_parse? {s : List Char} {a : Ipv4} (h : parse? s = some a) : a.chars = s := by
  obtain ⟨octets, hoctets, h⟩ := Option.bind_eq_some_iff.mp h
  split at h
  · cases h
    unfold chars
    rw [decimals_of_octets? hoctets, List.intercalate_splitOn]
  · cases h

end Ipv4


theorem Ip.chars_of_parse?_v4 {s : String} {a : Ipv4} (h : Ip.parse? s = some (.v4 a)) :
    a.chars = s.toList := by
  unfold Ip.parse? at h
  split at h
  · next hread =>
    cases h
    exact Ipv4.chars_of_parse? hread
  · obtain ⟨_, -, h⟩ := Option.map_eq_some_iff.mp h
    cases h

end RingOverlay
