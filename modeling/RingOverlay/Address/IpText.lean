import RingOverlay.Address.Ip
import RingOverlay.Text.Decimal

/-!
# Address — IP addresses as text

The reading is strict.  An IPv4 address is four decimal parts of at most three digits, none with a
needless leading zero.  An IPv6 address is a list of groups of one to four hexadecimal digits, the
last two of which may be written as an IPv4 address; one double colon, if there is one, stands for
one or more groups of zero.

The text of an address is the recommended one: lower-case digits, no leading zeros, and the first
longest run of two or more zero groups as a double colon.  An IPv4-mapped address shows the IPv4
address it stands for.
-/

namespace RingOverlay

/-! ### Reading -/

namespace Ipv4

/-- One decimal part: at most three digits, no leading zero, at most 255. -/
def octet? (s : List Char) : Option UInt8 :=
  if s ≠ [] ∧ s.length ≤ 3 ∧ s.all Char.isDigit ∧ (s.head? = some '0' → s.length = 1) ∧
      Nat.ofDigitChars 10 s 0 < 256 then
    some (UInt8.ofNat (Nat.ofDigitChars 10 s 0))
  else none

/-- Four decimal parts with points between them. -/
def parse? (s : List Char) : Option Ipv4 := do
  let octets ← (s.splitOn '.').mapM octet?
  if h : octets.length = 4 then some ⟨octets, h⟩ else none

end Ipv4

namespace Ipv6

/-- The value of a hexadecimal digit of either case. -/
def hexDigit? (c : Char) : Option Nat :=
  if '0' ≤ c ∧ c ≤ '9' then some (c.toNat - '0'.toNat)
  else if 'a' ≤ c ∧ c ≤ 'f' then some (c.toNat - 'a'.toNat + 10)
  else if 'A' ≤ c ∧ c ≤ 'F' then some (c.toNat - 'A'.toNat + 10)
  else none

/-- One group: one to four hexadecimal digits. -/
def group? (s : List Char) : Option UInt16 :=
  if s ≠ [] ∧ s.length ≤ 4 then do
    let digits ← s.mapM hexDigit?
    some (UInt16.ofNat (digits.foldl (fun n d => 16 * n + d) 0))
  else none

/-- The groups of a list of parts, the last of which may be an IPv4 address. -/
def groups? : List (List Char) → Option (List UInt16)
  | [] => some []
  | [last] =>
    match Ipv4.parse? last with
    | some a => some a.asGroups
    | none => (group? last).map ([·])
  | part :: parts => do
    let g ← group? part
    let gs ← groups? parts
    some (g :: gs)

/-- The parts between the single colons of a text; an empty text has none. -/
def parts (s : List Char) : List (List Char) :=
  if s = [] then [] else s.splitOn ':'

/-- What stands before and after the first double colon. -/
def cutAtGap : List Char → Option (List Char × List Char)
  | ':' :: ':' :: rest => some ([], rest)
  | c :: rest => (cutAtGap rest).map fun (before, after) => (c :: before, after)
  | [] => none

/-- An IPv6 address from its text. -/
def parse? (s : List Char) : Option Ipv6 :=
  match cutAtGap s with
  | none => do
    let gs ← groups? (parts s)
    if h : gs.length = 8 then some ⟨gs, h⟩ else none
  | some (before, after) => do
    let front ← (parts before).mapM group?
    let back ← groups? (parts after)
    if h : front.length + back.length ≤ 7 then
      some ⟨front ++ List.replicate (8 - front.length - back.length) 0 ++ back, by
        simp only [List.length_append, List.length_replicate]; omega⟩
    else none

end Ipv6

/-- An IP address of either family from its text. -/
def Ip.parse? (s : String) : Option Ip :=
  match Ipv4.parse? s.toList with
  | some a => some (.v4 a)
  | none => (Ipv6.parse? s.toList).map .v6

/-! ### Writing -/

/-- The four decimal parts of an IPv4 address, with points between them. -/
def Ipv4.chars (a : Ipv4) : List Char :=
  ['.'].intercalate (a.octets.map fun o => Text.decimal o.toNat)

namespace Ipv6

/-- A group in hexadecimal, without leading zeros. -/
def groupChars (g : UInt16) : List Char := Nat.toDigits 16 g.toNat

/-- Groups with single colons between them. -/
def groupsChars (gs : List UInt16) : List Char := [':'].intercalate (gs.map groupChars)

/-- How many groups of zero stand in front. -/
def zeroRun (gs : List UInt16) : Nat := (gs.takeWhile (· == 0)).length

/-- Where the first longest run of zero groups starts, and how long it is. -/
def longestGap (gs : List UInt16) : Nat × Nat :=
  (List.range gs.length).foldl (fun best start =>
    let run := zeroRun (gs.drop start)
    if best.2 < run then (start, run) else best) (0, 0)

/-- The recommended text of an IPv6 address. -/
def chars (a : Ipv6) : List Char :=
  match a.mapped? with
  | some b => "::ffff:".toList ++ b.chars
  | none =>
    let (start, run) := longestGap a.groups
    if 1 < run then
      groupsChars (a.groups.take start) ++ [':', ':'] ++ groupsChars (a.groups.drop (start + run))
    else groupsChars a.groups

end Ipv6

/-- The text of an IP address. -/
def Ip.text : Ip → String
  | .v4 a => String.ofList a.chars
  | .v6 a => String.ofList a.chars

end RingOverlay
