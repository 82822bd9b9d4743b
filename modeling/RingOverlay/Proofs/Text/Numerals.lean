import Mathlib.Data.List.Induction
import RingOverlay.Text.Decimal

/-!
# Text — numerals

A number is written in the digits of its base and in no other character
(`exists_digitChar_of_mem`).  The decimal text of a number has no needless zero in front
(`eq_zero_of_head_decimal`), and a numeral without one is the decimal text of its value
(`decimal_ofDigitChars`).

A `Numeral` of `n` is an optional plus sign and one or more decimal digits of value `n`.  The reading
accepts the numerals of the numbers below its bound and nothing else (`numeral?_eq_some_iff`,
`numeral?_eq_none_iff`), so it reads every number back from its decimal text (`numeral_decimal`).
-/

namespace RingOverlay.Text

/-! ### Writing -/

/-- The characters of a number are digits of its base. -/
theorem exists_digitChar_of_mem {b n : Nat} {c : Char} (hb : 1 < b) (h : c ∈ Nat.toDigits b n) :
    ∃ d < b, d.digitChar = c := by
  induction n using Nat.strongRecOn with
  | ind n ih =>
    rw [Nat.toDigits_eq_if hb] at h
    split at h
    · next hn => exact ⟨n, hn, (List.mem_singleton.mp h).symm⟩
    · next hn =>
      rcases List.mem_append.mp h with hfront | hlast
      · exact ih (n / b) (Nat.div_lt_self (by omega) hb) hfront
      · exact ⟨n % b, Nat.mod_lt n (by omega), (List.mem_singleton.mp hlast).symm⟩

/-- Only zero is written with a zero in front. -/
theorem eq_zero_of_head_decimal {n : Nat} (h : (decimal n).head? = some '0') : n = 0 := by
  unfold decimal at h
  induction n using Nat.strongRecOn with
  | ind n ih =>
    rcases Nat.lt_or_ge n 10 with hn | hn
    · rw [Nat.toDigits_of_lt_base hn, List.head?_cons] at h
      exact Nat.digitChar_eq_zero.mp (Option.some.inj h)
    · rw [Nat.toDigits_of_base_le (by decide) hn, List.head?_append,
        List.head?_eq_some_head Nat.toDigits_ne_nil, Option.some_or, ← List.head?_eq_some_head] at h
      have := ih (n / 10) (by omega) h
      omega

/-! ### Reading -/

/-- A digit is the digit of its value. -/
theorem digitChar_value {c : Char} (h : c.isDigit = true) :
    c.toNat - '0'.toNat < 10 ∧ Nat.digitChar (c.toNat - '0'.toNat) = c := by
  obtain ⟨hlow, hhigh⟩ := Char.isDigit_iff_toNat.mp h
  have hlt : c.toNat - '0'.toNat < 10 := by
    change c.toNat ≤ 57 at hhigh
    change c.toNat - 48 < 10
    omega
  refine ⟨hlt, Char.toNat_inj.mp ?_⟩
  rw [Nat.toNat_digitChar_of_lt_ten hlt]
  exact Nat.add_sub_cancel' hlow

/-- A numeral that does not start with zero is not zero. -/
theorem ofDigitChars_pos {ds : List Char} (hdigits : ∀ c ∈ ds, c.isDigit = true) (hne : ds ≠ [])
    (hhead : ds.head? ≠ some '0') : 0 < Nat.ofDigitChars 10 ds 0 := by
  obtain ⟨c, cs, rfl⟩ := List.exists_cons_of_ne_nil hne
  have hc : c.toNat - '0'.toNat ≠ 0 := fun hzero => by
    have heq := (digitChar_value (hdigits c List.mem_cons_self)).2
    rw [hzero] at heq
    exact hhead (congrArg some heq.symm)
  rw [Nat.ofDigitChars_cons, Nat.mul_zero, Nat.zero_add, Nat.ofDigitChars_eq_ofDigitChars_zero]
  have := Nat.mul_pos (Nat.pow_pos (n := cs.length) (show 0 < 10 by decide))
    (Nat.pos_of_ne_zero hc)
  omega

/-- A numeral without needless zeros in front is the decimal text of its value. -/
theorem decimal_ofDigitChars {ds : List Char} (hdigits : ∀ c ∈ ds, c.isDigit = true)
    (hne : ds ≠ []) (hhead : ds.head? = some '0' → ds.length = 1) :
    decimal (Nat.ofDigitChars 10 ds 0) = ds := by
  induction ds using List.reverseRecOn with
  | nil => exact absurd rfl hne
  | append_singleton ds c ih =>
    obtain ⟨hlt, hchar⟩ := digitChar_value (hdigits c (List.mem_append_right _ List.mem_cons_self))
    have hlast : decimal (c.toNat - '0'.toNat) = [c] := by
      unfold decimal
      rw [Nat.toDigits_of_lt_base hlt, hchar]
    rw [Nat.ofDigitChars_append, Nat.ofDigitChars_cons, Nat.ofDigitChars_nil]
    rcases eq_or_ne ds [] with rfl | hds
    · rw [Nat.ofDigitChars_nil, Nat.mul_zero, Nat.zero_add, hlast, List.nil_append]
    · have hfront : ∀ c ∈ ds, c.isDigit = true := fun x hx =>
        hdigits x (List.mem_append_left _ hx)
      have hzero : ds.head? ≠ some '0' := fun h0 => by
        have hlen := hhead (by rw [List.head?_append, h0]; rfl)
        have hpos := List.length_pos_iff.mpr hds
        rw [List.length_append, List.length_singleton] at hlen
        omega
      unfold decimal at hlast ih ⊢
      rw [← Nat.toDigits_append_toDigits (by decide) (ofDigitChars_pos hfront hds hzero) hlt,
        hlast, ih hfront hds fun h0 => absurd h0 hzero]

/-! ### Numerals -/

/-- `s` is an optional plus sign and one or more decimal digits, of value `n`. -/
def Numeral (s : List Char) (n : Nat) : Prop :=
  ∃ ds, (s = ds ∨ s = '+' :: ds) ∧ ds ≠ [] ∧ (∀ c ∈ ds, c.isDigit = true) ∧
    Nat.ofDigitChars 10 ds 0 = n

variable {bound n : Nat} {s ds : List Char}

/-- Digits have no sign to lose. -/
theorem unsigned_of_digits (h : ∀ c ∈ ds, c.isDigit = true) : unsigned ds = ds := by
  unfold unsigned
  split
  · next rest =>
    have hplus : '+'.isDigit = true := h '+' List.mem_cons_self
    exact absurd hplus (by decide)
  · rfl

/-- A text is what is left of it without its sign, or that behind a plus sign. -/
theorem eq_unsigned (s : List Char) : s = unsigned s ∨ s = '+' :: unsigned s := by
  unfold unsigned
  split
  · exact .inr rfl
  · exact .inl rfl

/-- **What is read are the numerals of the numbers below the bound.** -/
theorem numeral?_eq_some_iff : numeral? bound s = some n ↔ Numeral s n ∧ n < bound := by
  unfold numeral?
  dsimp only
  constructor
  · intro h
    split at h
    · next hs =>
      obtain ⟨hne, hdigits, hlt⟩ := hs
      cases h
      exact ⟨⟨unsigned s, eq_unsigned s, hne, List.all_eq_true.mp hdigits, rfl⟩, hlt⟩
    · cases h
  · rintro ⟨⟨ds, hs, hne, hdigits, rfl⟩, hlt⟩
    have hds : unsigned s = ds := by
      rcases hs with rfl | rfl
      · exact unsigned_of_digits hdigits
      · rfl
    rw [hds]
    exact if_pos ⟨hne, List.all_eq_true.mpr hdigits, hlt⟩

theorem numeral?_eq_none_iff : numeral? bound s = none ↔ ∀ n < bound, ¬ Numeral s n := by
  rw [Option.eq_none_iff_forall_ne_some]
  constructor
  · intro h n hn hs
    exact h n (numeral?_eq_some_iff.mpr ⟨hs, hn⟩)
  · intro h n hn
    obtain ⟨hs, hlt⟩ := numeral?_eq_some_iff.mp hn
    exact h n hlt hs

theorem isDigit_of_mem_decimal {c : Char} (h : c ∈ decimal n) : c.isDigit = true :=
  Nat.isDigit_of_mem_toDigits (by decide) (by decide) h

/-- The decimal text of a number holds digits only. -/
theorem notMem_decimal {c : Char} (hc : c.isDigit = false) (n : Nat) : c ∉ decimal n := by
  intro hmem
  rw [isDigit_of_mem_decimal hmem] at hc
  cases hc

theorem numeral_decimal (n : Nat) : Numeral (decimal n) n :=
  ⟨decimal n, .inl rfl, Nat.toDigits_ne_nil, fun _ => isDigit_of_mem_decimal,
    Nat.ofDigitChars_ten_toDigits⟩

/-- A text is a numeral of one number only. -/
theorem Numeral.unique {m : Nat} (hm : Numeral s m) (hn : Numeral s n) : m = n := by
  have hsome := numeral?_eq_some_iff.mpr ⟨hm, Nat.lt_succ_of_le (Nat.le_max_left m n)⟩
  have hsome' := numeral?_eq_some_iff.mpr ⟨hn, Nat.lt_succ_of_le (Nat.le_max_right m n)⟩
  exact Option.some.inj (hsome.symm.trans hsome')

/-- Two numbers are written alike only if they are one. -/
theorem decimal_injective : Function.Injective decimal := fun m n h =>
  (numeral_decimal m).unique (h ▸ numeral_decimal n)

/-! ### As texts -/

theorem toList_toString (n : Nat) : (toString n).toList = decimal n := Nat.toList_repr

theorem toString_nat_injective : Function.Injective fun n : Nat => toString n := by
  intro m n h
  rw [← String.toList_inj, toList_toString, toList_toString] at h
  exact decimal_injective h

/-- An integer is written as its absolute value, behind a minus sign if it is negative. -/
theorem toString_int (i : Int) :
    0 ≤ i ∧ toString i = toString i.natAbs ∨ i < 0 ∧ toString i = "-" ++ toString i.natAbs := by
  rw [Int.toString_eq_repr, Int.repr_eq_if, Nat.toString_eq_repr]
  split
  · next hi =>
    have habs : i.toNat = i.natAbs := by omega
    exact .inl ⟨hi, by rw [habs]⟩
  · next hi =>
    have habs : (-i).toNat = i.natAbs := by omega
    exact .inr ⟨Int.not_le.mp hi, by rw [habs]⟩

/-- Only what is negative is written with a minus sign. -/
theorem toString_nat_ne_minus (n : Nat) (s : String) : toString n ≠ "-" ++ s := by
  intro h
  have hsign : '-' ∈ (toString n).toList := by simp [h]
  rw [toList_toString] at hsign
  exact notMem_decimal (by decide) n hsign

theorem toString_int_injective : Function.Injective fun i : Int => toString i := by
  intro i j (h : toString i = toString j)
  rcases toString_int i with ⟨hi, htext⟩ | ⟨hi, htext⟩ <;>
    rcases toString_int j with ⟨hj, htext'⟩ | ⟨hj, htext'⟩ <;> rw [htext, htext'] at h
  · have habs := toString_nat_injective h
    omega
  · exact absurd h (toString_nat_ne_minus _ _)
  · exact absurd h.symm (toString_nat_ne_minus _ _)
  · have habs := toString_nat_injective ((String.append_right_inj _).mp h)
    omega

end RingOverlay.Text
