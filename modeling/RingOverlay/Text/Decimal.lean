/-!
# Text — decimal numerals

Numbers are written in decimal without leading zeros, and read back from a numeral: an optional
plus sign followed by one or more decimal digits, whose value has to lie below a bound.  Leading
zeros are read; a minus sign, blanks and separators are not.
-/

namespace RingOverlay.Text

/-- The decimal digits of `n`, most significant first. -/
def decimal (n : Nat) : List Char := Nat.toDigits 10 n

/-- The digits of a numeral: what is left without its one optional plus sign. -/
def unsigned : List Char → List Char
  | '+' :: ds => ds
  | ds => ds

/-- The value of a numeral below `bound`, if the text is one. -/
def numeral? (bound : Nat) (s : List Char) : Option Nat :=
  let ds := unsigned s
  if ds ≠ [] ∧ ds.all Char.isDigit ∧ Nat.ofDigitChars 10 ds 0 < bound then
    some (Nat.ofDigitChars 10 ds 0)
  else none

end RingOverlay.Text
