import RingOverlay.Proofs.Text.Numerals
import RingOverlay.Address.Peer

/-!
# Address — the text of a peer address

A peer is identified by its text `host:port`, and a host may itself hold colons.  The last colon is
what parts the two (`exists_last_colon`, `parted_inj`): a port is a numeral and holds none.

* `parse_of_no_colon`, `parse_parted`: what a text without a colon is read as, and one that is
  parted at its last colon.
* `text_identifies`: **which texts denote an address, and which of the three errors all others
  meet**; an address with a host is read back from its text, and no two addresses share one.
-/

namespace RingOverlay.PeerAddress

/-- `s` denotes `a`: it is a host that is not empty, a colon, and a numeral of the port. -/
def Denotes (s : String) (a : PeerAddress) : Prop :=
  ∃ t : String, s = a.host ++ ":" ++ t ∧ a.host ≠ "" ∧ ':' ∉ t.toList ∧
    Text.Numeral t.toList a.port.toNat

/-! ### The last colon -/

theorem splitLastColon_eq_none {s : List Char} (h : ':' ∉ s) : splitLastColon s = none := by
  induction s with
  | nil => rfl
  | cons c s ih =>
    obtain ⟨hc, hs⟩ := not_or.mp (mt List.mem_cons.mpr h)
    rw [splitLastColon, ih hs]
    exact if_neg (Ne.symm hc)

/-- A text is parted at the colon that no other comes after. -/
theorem splitLastColon_append {h t : List Char} (ht : ':' ∉ t) :
    splitLastColon (h ++ ':' :: t) = some (h, t) := by
  induction h with
  | nil =>
    rw [List.nil_append, splitLastColon, splitLastColon_eq_none ht]
    rfl
  | cons c h ih => rw [List.cons_append, splitLastColon, ih]

variable {s h t h' t' : String} {a b : PeerAddress}

theorem toList_parted (h t : String) : (h ++ ":" ++ t).toList = h.toList ++ ':' :: t.toList := by
  simp

/-- A text that holds a colon has a last one. -/
theorem exists_last_colon (hs : ':' ∈ s.toList) :
    ∃ h t : String, s = h ++ ":" ++ t ∧ ':' ∉ t.toList := by
  obtain ⟨after, before, hsplit, hafter⟩ := List.eq_append_cons_of_mem (List.mem_reverse.mpr hs)
  refine ⟨String.ofList before.reverse, String.ofList after.reverse, ?_, by simpa using hafter⟩
  rw [← String.toList_inj, toList_parted, ← List.reverse_reverse s.toList, hsplit]
  simp

/-- A text is parted at its last colon in one way only. -/
theorem parted_inj (ht : ':' ∉ t.toList) (ht' : ':' ∉ t'.toList)
    (heq : h ++ ":" ++ t = h' ++ ":" ++ t') : h = h' ∧ t = t' := by
  have hsplit := splitLastColon_append (h := h.toList) ht
  rw [← toList_parted, heq, toList_parted, splitLastColon_append ht'] at hsplit
  obtain ⟨hh, ht⟩ := Prod.mk.inj (Option.some.inj hsplit)
  exact ⟨(String.toList_inj.mp hh).symm, (String.toList_inj.mp ht).symm⟩

/-! ### Ports -/

theorem port?_eq_some_iff {s : List Char} {p : UInt16} :
    port? s = some p ↔ Text.Numeral s p.toNat := by
  unfold port?
  rw [Option.map_eq_some_iff]
  constructor
  · rintro ⟨n, hn, rfl⟩
    obtain ⟨hs, hlt⟩ := Text.numeral?_eq_some_iff.mp hn
    rwa [UInt16.toNat_ofNat_of_lt' hlt]
  · intro hs
    exact ⟨p.toNat, Text.numeral?_eq_some_iff.mpr ⟨hs, p.toNat_lt⟩, UInt16.ofNat_toNat⟩

theorem colon_notMem_port (p : UInt16) : ':' ∉ (toString p.toNat).toList := by
  rw [Text.toList_toString]
  exact Text.notMem_decimal (by decide) p.toNat

/-! ### Reading -/

theorem parse_of_no_colon (hs : ':' ∉ s.toList) : parse s = .error .missingPort := by
  unfold parse
  rw [splitLastColon_eq_none hs]

/-- The host is looked at before the port. -/
theorem parse_parted (ht : ':' ∉ t.toList) :
    parse (h ++ ":" ++ t) =
      if h = "" then .error .missingHost
      else (port? t.toList).elim (.error .invalidPort) fun p => .ok ⟨h, p⟩ := by
  unfold parse
  rw [toList_parted, splitLastColon_append ht]
  dsimp only
  rw [String.ofList_toList]
  by_cases hh : h = ""
  · rw [if_pos hh, if_pos (by simp [hh])]
  · rw [if_neg hh, if_neg (by simpa using hh)]
    cases port? t.toList <;> rfl

/-- Of a text with a host only the port is refused. -/
theorem eq_invalidPort_of_host {e : AddressError} (hh : h ≠ "") (ht : ':' ∉ t.toList)
    (herr : parse (h ++ ":" ++ t) = .error e) : e = .invalidPort := by
  rw [parse_parted ht, if_neg hh] at herr
  cases hport : port? t.toList with
  | none =>
    rw [hport] at herr
    exact (Except.error.inj herr).symm
  | some p =>
    rw [hport] at herr
    cases herr

/-- What a text parted at its last colon denotes is its host and the number that its port is. -/
theorem denotes_parted_iff (ht : ':' ∉ t.toList) :
    Denotes (h ++ ":" ++ t) a ↔
      a.host = h ∧ h ≠ "" ∧ port? t.toList = some a.port := by
  rw [port?_eq_some_iff]
  constructor
  · rintro ⟨t', heq, hne, ht', hport⟩
    obtain ⟨rfl, rfl⟩ := parted_inj ht ht' heq
    exact ⟨rfl, hne, hport⟩
  · rintro ⟨rfl, hne, hport⟩
    exact ⟨t, rfl, hne, ht, hport⟩

theorem not_denotes_of_no_colon (hs : ':' ∉ s.toList) : ¬ Denotes s a := by
  rintro ⟨t, rfl, -, -, -⟩
  exact hs (by simp)

/-- The reading finds the address that a text denotes. -/
theorem parse_eq_ok_iff : parse s = .ok a ↔ Denotes s a := by
  by_cases hs : ':' ∈ s.toList
  · obtain ⟨h, t, rfl, ht⟩ := exists_last_colon hs
    rw [parse_parted ht, denotes_parted_iff ht]
    obtain ⟨host, port⟩ := a
    split
    · next hh => simp [hh]
    · next hh =>
      cases port? t.toList with
      | none => simp
      | some p => simp [hh, eq_comm]
  · rw [parse_of_no_colon hs]
    simp [not_denotes_of_no_colon hs]

theorem parse_eq_missingPort_iff : parse s = .error .missingPort ↔ ':' ∉ s.toList := by
  constructor
  · intro herr hs
    obtain ⟨h, t, rfl, ht⟩ := exists_last_colon hs
    by_cases hh : h = ""
    · rw [parse_parted ht, if_pos hh] at herr
      cases herr
    · cases eq_invalidPort_of_host hh ht herr
  · exact parse_of_no_colon

/-- The only colon of a text without a host is its first character. -/
theorem parse_eq_missingHost_iff :
    parse s = .error .missingHost ↔ ∃ t : String, s = ":" ++ t ∧ ':' ∉ t.toList := by
  constructor
  · intro herr
    by_cases hs : ':' ∈ s.toList
    · obtain ⟨h, t, rfl, ht⟩ := exists_last_colon hs
      by_cases hh : h = ""
      · exact ⟨t, by rw [hh, String.empty_append], ht⟩
      · cases eq_invalidPort_of_host hh ht herr
    · rw [parse_of_no_colon hs] at herr
      cases herr
  · rintro ⟨t, rfl, ht⟩
    have hread := parse_parted (h := "") ht
    rwa [String.empty_append, if_pos rfl] at hread

/-- There is no other reason to refuse a text: what is left has an invalid port. -/
theorem parse_eq_invalidPort_iff :
    parse s = .error .invalidPort ↔ (∀ a, ¬ Denotes s a) ∧ ':' ∈ s.toList ∧
      ¬ ∃ t : String, s = ":" ++ t ∧ ':' ∉ t.toList := by
  have hcolon : ':' ∈ s.toList ↔ parse s ≠ .error .missingPort := by
    rw [ne_eq, parse_eq_missingPort_iff, not_not]
  rw [← parse_eq_missingHost_iff, hcolon]
  simp only [← parse_eq_ok_iff]
  cases parse s with
  | ok a => simp
  | error e => cases e <;> simp

/-! ### The text of an address -/

theorem denotes_text (ha : a.host ≠ "") : Denotes a.text a := by
  refine ⟨toString a.port.toNat, rfl, ha, colon_notMem_port a.port, ?_⟩
  rw [Text.toList_toString]
  exact Text.numeral_decimal a.port.toNat

/-- **Addresses of one text are one**, also those without a host and those whose host holds colons:
the port is what comes after the last colon. -/
theorem text_injective : Function.Injective text := by
  intro a b heq
  obtain ⟨hhost, hport⟩ := parted_inj (colon_notMem_port a.port) (colon_notMem_port b.port) heq
  obtain ⟨host, port⟩ := a
  obtain ⟨host', port'⟩ := b
  obtain rfl : host = host' := hhost
  obtain rfl := UInt16.toNat_inj.mp (Text.toString_nat_injective hport)
  rfl

/-- **A text denotes one address or is refused for one of three reasons.**  It denotes the address
`h`, `p` if it is `h`, a colon and a numeral of `p`, where `h` is not empty and may hold colons
itself.  It lacks a port if it has no colon, and a host if its only colon is its first character;
otherwise its port is invalid.  An address with a host is read back from its text, and two addresses
have two texts whatever their hosts. -/
theorem text_identifies :
    (∀ s a, parse s = .ok a ↔ Denotes s a) ∧
    (∀ s, parse s = .error .missingPort ↔ ':' ∉ s.toList) ∧
    (∀ s, parse s = .error .missingHost ↔ ∃ t : String, s = ":" ++ t ∧ ':' ∉ t.toList) ∧
    (∀ s, parse s = .error .invalidPort ↔ (∀ a, ¬ Denotes s a) ∧ ':' ∈ s.toList ∧
      ¬ ∃ t : String, s = ":" ++ t ∧ ':' ∉ t.toList) ∧
    (∀ a, parse a.text = if a.host = "" then .error .missingHost else .ok a) ∧
    ∀ a b : PeerAddress, a.text = b.text ↔ a = b := by
  refine ⟨fun _ _ => parse_eq_ok_iff, fun _ => parse_eq_missingPort_iff,
    fun _ => parse_eq_missingHost_iff, fun _ => parse_eq_invalidPort_iff, ?_, ?_⟩
  · intro a
    by_cases ha : a.host = ""
    · rw [if_pos ha, text, parse_parted (colon_notMem_port a.port), if_pos ha]
    · rw [if_neg ha, parse_eq_ok_iff]
      exact denotes_text ha
  · intro a b
    exact text_injective.eq_iff

example : parse "fe80::7:+0080" = .ok ⟨"fe80::7", 80⟩ := by decide

end RingOverlay.PeerAddress
