import Mathlib.Algebra.Ring.Nat
import RingOverlay.Bytes.Read

/-!
# Bytes — reading back what was written

Bytes spell one number, and no others as many spell it too (`value_inj`).  So writing a number and
reading it back is the identity both ways, up to the numbers that do not fit the width:
`value_encodeNat` and `encodeNat_value`.  The fixed-width integers inherit it, signed ones through
their two's complement.

A read that finds something found it in front, and left what comes after: `Read.take_eq_some_iff`,
`Read.map_eq_some_iff`.  One that finds nothing left nothing either: `Read.take_of_lt`.
-/

namespace RingOverlay.Bytes

/-! ### The number that bytes spell -/

theorem foldl_value (n : Nat) (bs : List UInt8) :
    bs.foldl (fun n b => 256 * n + b.toNat) n = 256 ^ bs.length * n + value bs := by
  induction bs generalizing n with
  | nil => simp [value]
  | cons b bs ih =>
    rw [value, List.foldl_cons, List.foldl_cons, List.length_cons, ih, ih, pow_succ, Nat.mul_zero,
      Nat.zero_add, Nat.mul_add, Nat.mul_assoc, Nat.add_assoc]

theorem value_cons (b : UInt8) (bs : List UInt8) :
    value (b :: bs) = 256 ^ bs.length * b.toNat + value bs := by
  rw [value, List.foldl_cons, foldl_value, Nat.mul_zero, Nat.zero_add]

theorem value_lt (bs : List UInt8) : value bs < 256 ^ bs.length := by
  induction bs with
  | nil => exact Nat.one_pos
  | cons b bs ih =>
    have hb : b.toNat + 1 ≤ 256 := b.toNat_lt
    calc value (b :: bs) = 256 ^ bs.length * b.toNat + value bs := value_cons b bs
      _ < 256 ^ bs.length * b.toNat + 256 ^ bs.length := Nat.add_lt_add_left ih _
      _ = 256 ^ bs.length * (b.toNat + 1) := (Nat.mul_succ _ _).symm
      _ ≤ 256 ^ bs.length * 256 := Nat.mul_le_mul_left _ hb
      _ = 256 ^ (b :: bs).length := (pow_succ _ _).symm

theorem value_cons_div (b : UInt8) (bs : List UInt8) :
    value (b :: bs) / 256 ^ bs.length = b.toNat := by
  have hpos : 0 < 256 ^ bs.length := Nat.pow_pos (by decide)
  rw [value_cons, Nat.mul_add_div hpos, Nat.div_eq_of_lt (value_lt bs), Nat.add_zero]

theorem value_cons_mod (b : UInt8) (bs : List UInt8) :
    value (b :: bs) % 256 ^ bs.length = value bs := by
  rw [value_cons, Nat.mul_add_mod, Nat.mod_eq_of_lt (value_lt bs)]

/-- Bytes are known by how many they are and the number that they spell. -/
theorem value_inj {as bs : List UInt8} (hlen : as.length = bs.length)
    (h : value as = value bs) : as = bs := by
  induction as generalizing bs with
  | nil => exact (List.eq_nil_of_length_eq_zero hlen.symm).symm
  | cons a as ih =>
    cases bs with
    | nil => cases hlen
    | cons b bs =>
      have hrest : as.length = bs.length := Nat.succ.inj hlen
      have ha := value_cons_div a as
      have has := value_cons_mod a as
      rw [h, hrest] at ha has
      have hhead : a = b := UInt8.toNat_inj.mp (ha.symm.trans (value_cons_div b bs))
      rw [hhead, ih hrest (has.symm.trans (value_cons_mod b bs))]

/-! ### Writing and reading -/

theorem encodeNat_succ (w n : Nat) :
    encodeNat (w + 1) n = UInt8.ofNat (n / 256 ^ w) :: encodeNat w n := rfl

@[simp] theorem length_encodeNat (w n : Nat) : (encodeNat w n).length = w := by
  induction w with
  | zero => rfl
  | succ w ih => rw [encodeNat_succ, List.length_cons, ih]

theorem value_encodeNat (w n : Nat) : value (encodeNat w n) = n % 256 ^ w := by
  induction w with
  | zero => exact (Nat.mod_one n).symm
  | succ w ih =>
    have hbyte : (UInt8.ofNat (n / 256 ^ w)).toNat = n / 256 ^ w % 256 := UInt8.toNat_ofNat'
    rw [encodeNat_succ, value_cons, ih, length_encodeNat, hbyte, pow_succ, Nat.mod_mul,
      Nat.add_comm]

theorem encodeNat_value {w : Nat} {bs : List UInt8} (h : bs.length = w) :
    encodeNat w (value bs) = bs := by
  subst h
  refine value_inj (length_encodeNat _ _) ?_
  rw [value_encodeNat, Nat.mod_eq_of_lt (value_lt bs)]

/-! ### Fixed-width integers -/

@[simp] theorem length_ofInt32 (n : Int32) : (ofInt32 n).length = 4 := length_encodeNat _ _

@[simp] theorem length_ofInt64 (n : Int64) : (ofInt64 n).length = 8 := length_encodeNat _ _

theorem toInt32_ofInt32 (n : Int32) : toInt32 (ofInt32 n) = n := by
  have hlt : n.toUInt32.toNat < 256 ^ 4 := n.toUInt32.toNat_lt
  rw [toInt32, toUInt32, ofInt32, ofUInt32, value_encodeNat, Nat.mod_eq_of_lt hlt,
    UInt32.ofNat_toNat, Int32.toInt32_toUInt32]

theorem ofInt32_toInt32 {bs : List UInt8} (h : bs.length = 4) : ofInt32 (toInt32 bs) = bs := by
  have hlt : value bs < 256 ^ 4 := h ▸ value_lt bs
  rw [ofInt32, ofUInt32, toInt32, UInt32.toUInt32_toInt32, toUInt32, UInt32.toNat_ofNat_of_lt' hlt,
    encodeNat_value h]

theorem toInt64_ofInt64 (n : Int64) : toInt64 (ofInt64 n) = n := by
  have hlt : n.toUInt64.toNat < 256 ^ 8 := n.toUInt64.toNat_lt
  rw [toInt64, ofInt64, value_encodeNat, Nat.mod_eq_of_lt hlt, UInt64.ofNat_toNat,
    Int64.toInt64_toUInt64]

theorem ofInt64_toInt64 {bs : List UInt8} (h : bs.length = 8) : ofInt64 (toInt64 bs) = bs := by
  have hlt : value bs < 256 ^ 8 := h ▸ value_lt bs
  rw [ofInt64, toInt64, UInt64.toUInt64_toInt64, UInt64.toNat_ofNat_of_lt' hlt, encodeNat_value h]

/-- An integer that is not negative is written like the number that it is. -/
theorem ofInt32_of_toInt {n : Int32} {k : Nat} (h : n.toInt = k) : ofInt32 n = encodeNat 4 k := by
  have hnonneg : 0 ≤ n := by
    rw [Int32.le_iff_toInt_le, h]
    exact Int.natCast_nonneg k
  have hn : n.toUInt32.toNat = k := by
    rw [Int32.toNat_toUInt32_of_le hnonneg, Int32.toNatClampNeg, h, Int.toNat_natCast]
  rw [ofInt32, ofUInt32, hn]

/-- A number of four bytes is written like the signed integer that they spell. -/
theorem ofInt32_ofNat {n : Nat} (h : n < UInt32.size) :
    ofInt32 (Int32.ofNat n) = encodeNat 4 n := by
  have hn : (Int32.ofNat n).toUInt32.toNat = n := by
    rw [Int32.toUInt32_ofNat', UInt32.toNat_ofNat_of_lt' h]
  rw [ofInt32, ofUInt32, hn]

/-! ### Reads -/

namespace Read

variable {α : Type} {bs front rest : List UInt8} {n : Nat}

theorem take_eq_some_iff :
    take n bs = (some front, rest) ↔ front.length = n ∧ bs = front ++ rest := by
  constructor
  · intro h
    by_cases hlen : (bs.take n).length = n
    · have htake : take n bs = (some (bs.take n), bs.drop n) := if_pos hlen
      cases htake.symm.trans h
      exact ⟨hlen, (List.take_append_drop n bs).symm⟩
    · have htake : take n bs = (none, []) := if_neg hlen
      cases htake.symm.trans h
  · rintro ⟨rfl, rfl⟩
    simp [take]

theorem take_append (h : front.length = n) (rest : List UInt8) :
    take n (front ++ rest) = (some front, rest) :=
  take_eq_some_iff.mpr ⟨h, rfl⟩

/-- Where there are too few bytes, those that there are get lost. -/
theorem take_of_lt (h : bs.length < n) : take n bs = (none, []) :=
  if_neg fun hlen => by rw [List.length_take] at hlen; omega

theorem map_eq_some_iff {f : List UInt8 → α} {a : α} :
    (take n).map f bs = (some a, rest) ↔
      ∃ front, front.length = n ∧ f front = a ∧ bs = front ++ rest := by
  constructor
  · intro h
    have hfound : (take n bs).1.map f = some a := congrArg Prod.fst h
    have hrest : (take n bs).2 = rest := congrArg Prod.snd h
    obtain ⟨front, hfront, rfl⟩ := Option.map_eq_some_iff.mp hfound
    obtain ⟨hlen, hbs⟩ := take_eq_some_iff.mp (Prod.ext hfront hrest)
    exact ⟨front, hlen, rfl, hbs⟩
  · rintro ⟨front, hlen, rfl, hbs⟩
    rw [map, take_eq_some_iff.mpr ⟨hlen, hbs⟩]
    rfl

end Read

end RingOverlay.Bytes
