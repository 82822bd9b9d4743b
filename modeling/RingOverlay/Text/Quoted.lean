import RingOverlay.Text.Unshown

/-!
# Text — quoted text

An error that repeats what the operator typed shows it in double quotes, with everything escaped
that could not be read off the screen: quotes and backslashes by a backslash, the common controls
by their letters, and characters that show nothing or merge with the one before by their number in
hexadecimal.
-/

namespace RingOverlay.Text

/-- The character's number, in lower-case hexadecimal between braces. -/
def numberEscape (c : Char) : List Char :=
  '\\' :: 'u' :: '\x7b' :: Nat.toDigits 16 c.toNat ++ ['\x7d']

/-- How a character is written between the quotes. -/
def escape (c : Char) : List Char :=
  if c = '\x00' then ['\\', '0']
  else if c = '\t' then ['\\', 't']
  else if c = '\r' then ['\\', 'r']
  else if c = '\n' then ['\\', 'n']
  else if c = '\\' ∨ c = '"' then ['\\', c]
  else if isSpelledOut c then numberEscape c
  else [c]

/-- The text in double quotes, escaped. -/
def quoted (s : String) : String :=
  String.ofList ('"' :: s.toList.flatMap escape ++ ['"'])

end RingOverlay.Text
