import Mathlib.Data.List.ReduceOption
import Mathlib.Data.Nat.Digits.Defs
import RingOverlay.Proofs.Bytes.BigEndian

/-!
# Bytes — sequences of reads

Bytes *denote* an item (`Denotes`) if they are as many as its shape takes, and the item is what they
are as digits to the base 256, in two's complement if the shape is signed.  `Accounts shapes bs
items left` goes through `bs` read by read: a read finds what the bytes in front denote and leaves
those behind them, or there are too few of them for it, and then it leaves none.

* `readAll_eq_iff`: that is what reads do.
* `Accounts.split`: what was found, written again, what the first read that failed took with it, and
  what is left are the bytes that were read from.
* `reads_accounted`: **reads account for every byte**, from the first to the last that is left.
-/

namespace RingOverlay.Bytes

/-- The number whose digits to the base 256 are the bytes, most significant first. -/
def bigEndian (bs : List UInt8) : Nat := Nat.ofDigits 256 (bs.reverse.map UInt8.toNat)

/-- The integer that a number of `width` bytes stands for in two's complement. -/
def twosComplement (width n : Nat) : Int :=
  if 2 * n < 256 ^ width then n else (n : Int) - (256 ^ width : Nat)

/-- Bytes of the width of a shape, and the item of that shape that they denote. -/
inductive Denotes : Shape → List UInt8 → Item → Prop where
  | u8 {bs : List UInt8} {n : UInt8} (hlen : bs.length = 1) (hn : n.toNat = bigEndian bs) :
      Denotes .u8 bs (.u8 n)
  | u32 {bs : List UInt8} {n : UInt32} (hlen : bs.length = 4) (hn : n.toNat = bigEndian bs) :
      Denotes .u32 bs (.u32 n)
  | i32 {bs : List UInt8} {n : Int32} (hlen : bs.length = 4)
      (hn : n.toInt = twosComplement 4 (bigEndian bs)) : Denotes .i32 bs (.i32 n)
  | i64 {bs : List UInt8} {n : Int64} (hlen : bs.length = 8)
      (hn : n.toInt = twosComplement 8 (bigEndian bs)) : Denotes .i64 bs (.i64 n)
  | bytes {bs : List UInt8} {n : Nat} (hlen : bs.length = n) : Denotes (.bytes n) bs (.bytes bs)

/-- What reads of these shapes make of bytes, one after the other: their items, none for a read that
fails, and the bytes that are left. -/
inductive Accounts : List Shape → List UInt8 → List (Option Item) → List UInt8 → Prop where
  | done {bs : List UInt8} : Accounts [] bs [] bs
  | found {shape shapes front item bs items left} (h : Denotes shape front item)
      (rest : Accounts shapes bs items left) :
      Accounts (shape :: shapes) (front ++ bs) (some item :: items) left
  | short {shape shapes bs items left} (h : bs.length < shape.width)
      (rest : Accounts shapes [] items left) :
      Accounts (shape :: shapes) bs (none :: items) left

/-- The bytes of the reads that found something, written again. -/
def rewritten (items : List (Option Item)) : List UInt8 := items.reduceOption.flatMap Item.encode

/-- What a read of a shape makes of bytes of its width. -/
def Shape.found : Shape → List UInt8 → Item
  | u8, bs => .u8 (UInt8.ofNat (value bs))
  | u32, bs => .u32 (toUInt32 bs)
  | i32, bs => .i32 (toInt32 bs)
  | i64, bs => .i64 (toInt64 bs)
  | bytes _, bs => .bytes bs

variable {shape : Shape} {shapes : List Shape} {bs front left rest : List UInt8} {item : Item}
  {items : List (Option Item)}

/-! ### Digits and two's complement -/

theorem value_eq_bigEndian (bs : List UInt8) : value bs = bigEndian bs := by
  induction bs with
  | nil => rfl
  | cons b bs ih =>
    unfold bigEndian at ih ⊢
    rw [value_cons, ih, List.reverse_cons, List.map_append, Nat.ofDigits_append, List.length_map,
      List.length_reverse, List.map_singleton, Nat.ofDigits_singleton, Nat.add_comm]

theorem toNat_ofNat_value (h : bs.length = 1) : (UInt8.ofNat (value bs)).toNat = bigEndian bs := by
  have hlt : value bs < 256 ^ 1 := h ▸ value_lt bs
  rw [UInt8.toNat_ofNat_of_lt' hlt, value_eq_bigEndian]

theorem toNat_toUInt32 (h : bs.length = 4) : (toUInt32 bs).toNat = bigEndian bs := by
  have hlt : value bs < 256 ^ 4 := h ▸ value_lt bs
  rw [toUInt32, UInt32.toNat_ofNat_of_lt' hlt, value_eq_bigEndian]

theorem toInt_toInt32 (h : bs.length = 4) :
    (toInt32 bs).toInt = twosComplement 4 (bigEndian bs) := by
  have hn : (toUInt32 bs).toBitVec.toNat = bigEndian bs := toNat_toUInt32 h
  rw [toInt32, Int32.toInt, UInt32.toBitVec_toInt32, BitVec.toInt_eq_toNat_cond, hn]
  rfl

theorem toInt_toInt64 (h : bs.length = 8) :
    (toInt64 bs).toInt = twosComplement 8 (bigEndian bs) := by
  have hlt : value bs < 256 ^ 8 := h ▸ value_lt bs
  have hn : (UInt64.ofNat (value bs)).toBitVec.toNat = bigEndian bs := by
    rw [← value_eq_bigEndian]
    exact UInt64.toNat_ofNat_of_lt' hlt
  rw [toInt64, Int64.toInt, UInt64.toBitVec_toInt64, BitVec.toInt_eq_toNat_cond, hn]
  rfl

/-! ### One read -/

theorem denotes_found (h : bs.length = shape.width) : Denotes shape bs (shape.found bs) := by
  cases shape with
  | u8 => exact .u8 h (toNat_ofNat_value h)
  | u32 => exact .u32 h (toNat_toUInt32 h)
  | i32 => exact .i32 h (toInt_toInt32 h)
  | i64 => exact .i64 h (toInt_toInt64 h)
  | bytes n => exact .bytes h

/-- Bytes denote one item at most. -/
theorem denotes_iff : Denotes shape bs item ↔ bs.length = shape.width ∧ item = shape.found bs := by
  refine ⟨fun h => ?_, fun ⟨hlen, hitem⟩ => hitem ▸ denotes_found hlen⟩
  cases h with
  | u8 hlen hn =>
    exact ⟨hlen, congrArg Item.u8 (UInt8.toNat_inj.mp (hn.trans (toNat_ofNat_value hlen).symm))⟩
  | u32 hlen hn =>
    exact ⟨hlen, congrArg Item.u32 (UInt32.toNat_inj.mp (hn.trans (toNat_toUInt32 hlen).symm))⟩
  | i32 hlen hn =>
    exact ⟨hlen, congrArg Item.i32 (Int32.toInt_inj.mp (hn.trans (toInt_toInt32 hlen).symm))⟩
  | i64 hlen hn =>
    exact ⟨hlen, congrArg Item.i64 (Int64.toInt_inj.mp (hn.trans (toInt_toInt64 hlen).symm))⟩
  | bytes hlen => exact ⟨hlen, rfl⟩

/-- An item is written as the bytes that denote it. -/
theorem Denotes.encode_eq (h : Denotes shape bs item) : item.encode = bs := by
  obtain ⟨hlen, rfl⟩ := denotes_iff.mp h
  cases shape with
  | u8 =>
    obtain ⟨b, rfl⟩ := List.length_eq_one_iff.mp hlen
    exact congrArg (fun n => [n]) (UInt8.toNat_inj.mp (by
      rw [toNat_ofNat_value hlen, ← value_eq_bigEndian]
      simp [value]))
  | u32 =>
    change encodeNat 4 (toUInt32 bs).toNat = bs
    rw [toNat_toUInt32 hlen, ← value_eq_bigEndian]
    exact encodeNat_value hlen
  | i32 => exact ofInt32_toInt32 hlen
  | i64 => exact ofInt64_toInt64 hlen
  | bytes n => rfl

theorem read_eq_map_take (shape : Shape) :
    shape.read = (Read.take shape.width).map shape.found := by
  funext bs
  cases shape <;>
    simp only [Shape.read, Read.u8, Read.u32, Read.i32, Read.i64, Read.map, Option.map_map] <;> rfl

/-- A read finds what the bytes in front denote, and leaves those behind them. -/
theorem read_eq_some_iff :
    shape.read bs = (some item, rest) ↔ ∃ front, Denotes shape front item ∧ bs = front ++ rest := by
  rw [read_eq_map_take, Read.map_eq_some_iff]
  constructor
  · rintro ⟨front, hlen, rfl, hbs⟩
    exact ⟨front, denotes_found hlen, hbs⟩
  · rintro ⟨front, hdenotes, hbs⟩
    obtain ⟨hlen, rfl⟩ := denotes_iff.mp hdenotes
    exact ⟨front, hlen, rfl, hbs⟩

theorem exists_read_of_le (h : shape.width ≤ bs.length) :
    ∃ front item rest, bs = front ++ rest ∧ Denotes shape front item ∧
      shape.read bs = (some item, rest) := by
  have hsplit : bs = bs.take shape.width ++ bs.drop shape.width := (List.take_append_drop _ _).symm
  have hdenotes : Denotes shape (bs.take shape.width) _ := denotes_found (List.length_take_of_le h)
  exact ⟨_, _, _, hsplit, hdenotes, read_eq_some_iff.mpr ⟨_, hdenotes, hsplit⟩⟩

/-- A read for which there are too few bytes takes all there are. -/
theorem read_of_lt (h : bs.length < shape.width) : shape.read bs = (none, []) := by
  rw [read_eq_map_take, Read.map, Read.take_of_lt h]
  rfl

theorem read_fst_eq_none_iff : (shape.read bs).1 = none ↔ bs.length < shape.width := by
  refine ⟨fun h => ?_, fun h => congrArg Prod.fst (read_of_lt h)⟩
  by_contra hle
  obtain ⟨_, _, _, -, -, hread⟩ := exists_read_of_le (Nat.not_lt.mp hle)
  rw [hread] at h
  cases h

/-! ### One read after the other -/

theorem readAll_cons (shape : Shape) (shapes : List Shape) (bs : List UInt8) :
    Shape.readAll (shape :: shapes) bs =
      ((shape.read bs).1 :: (Shape.readAll shapes (shape.read bs).2).1,
        (Shape.readAll shapes (shape.read bs).2).2) := rfl

theorem readAll_append (before after : List Shape) (bs : List UInt8) :
    Shape.readAll (before ++ after) bs =
      ((Shape.readAll before bs).1 ++ (Shape.readAll after (Shape.readAll before bs).2).1,
        (Shape.readAll after (Shape.readAll before bs).2).2) := by
  induction before generalizing bs with
  | nil => rfl
  | cons shape before ih => rw [List.cons_append, readAll_cons, ih, readAll_cons, List.cons_append]

theorem length_readAll (shapes : List Shape) (bs : List UInt8) :
    (Shape.readAll shapes bs).1.length = shapes.length := by
  induction shapes generalizing bs with
  | nil => rfl
  | cons shape shapes ih => rw [readAll_cons, List.length_cons, List.length_cons, ih]

theorem accounts_readAll (shapes : List Shape) (bs : List UInt8) :
    Accounts shapes bs (Shape.readAll shapes bs).1 (Shape.readAll shapes bs).2 := by
  induction shapes generalizing bs with
  | nil => exact .done
  | cons shape shapes ih =>
    rw [readAll_cons]
    rcases Nat.lt_or_ge bs.length shape.width with hlt | hle
    · rw [read_of_lt hlt]
      exact .short hlt (ih [])
    · obtain ⟨front, item, rest, rfl, hdenotes, hread⟩ := exists_read_of_le hle
      rw [hread]
      exact .found hdenotes (ih rest)

/-- **What reads make of bytes.** -/
theorem readAll_eq_iff :
    Shape.readAll shapes bs = (items, left) ↔ Accounts shapes bs items left := by
  constructor
  · intro h
    have haccounts := accounts_readAll shapes bs
    rwa [h] at haccounts
  · intro h
    induction h with
    | done => rfl
    | found hdenotes _ ih => rw [readAll_cons, read_eq_some_iff.mpr ⟨_, hdenotes, rfl⟩, ih]
    | short hlt _ ih => rw [readAll_cons, read_of_lt hlt, ih]

/-- What was found, what the first read that failed took with it, and what is left. -/
theorem Accounts.split (h : Accounts shapes bs items left) :
    ∃ lost, bs = rewritten items ++ lost ++ left ∧
      (none ∉ items → lost = []) ∧ (none ∈ items → left = []) := by
  induction h with
  | done => exact ⟨[], rfl, fun _ => rfl, fun h => absurd h List.not_mem_nil⟩
  | @found shape shapes front item bs items left hdenotes _ ih =>
    obtain ⟨lost, hbs, hlost, hleft⟩ := ih
    have hfound : rewritten (some item :: items) = front ++ rewritten items := by
      unfold rewritten
      rw [List.reduceOption_cons_of_some, List.flatMap_cons, hdenotes.encode_eq]
    refine ⟨lost, ?_, fun h => hlost fun hmem => h (.tail _ hmem), fun h => hleft ?_⟩
    · rw [hfound, List.append_assoc, List.append_assoc, ← List.append_assoc (rewritten items), ← hbs]
    · exact (List.mem_cons.mp h).resolve_left (Option.some_ne_none item).symm
  | @short shape shapes bs items left hlt _ ih =>
    -- nothing was left for the reads that follow
    obtain ⟨lost, hnil, -, -⟩ := ih
    obtain ⟨hfound, hleft⟩ := List.append_eq_nil_iff.mp hnil.symm
    have hnone : rewritten (none :: items) = rewritten items := by
      unfold rewritten
      rw [List.reduceOption_cons_of_none]
    refine ⟨bs, ?_, fun h => absurd List.mem_cons_self h, fun _ => hleft⟩
    rw [hnone, (List.append_eq_nil_iff.mp hfound).1, hleft, List.nil_append, List.append_nil]

/-- **Reads account for every byte.**  One after the other, each finds the number that the bytes in
front of it denote, and leaves those behind them; it fails exactly if there are fewer of them than
it is wide, takes what there is, and leaves nothing to those after it that take any.  So what was
found, written again, is how the bytes began; behind it comes what the first read that failed took
with it, and then what is left. -/
theorem reads_accounted (h : Shape.readAll shapes bs = (items, left)) :
    Accounts shapes bs items left ∧
    (∃ lost, bs = rewritten items ++ lost ++ left ∧
      left.length = bs.length - (rewritten items ++ lost).length ∧
      (none ∉ items → lost = []) ∧ (none ∈ items → left = [])) ∧
    ∀ before shape after, shapes = before ++ shape :: after →
      (items[before.length]? = some none ↔ (Shape.readAll before bs).2.length < shape.width) ∧
      (none ∈ items.take before.length → 0 < shape.width →
        items[before.length]? = some none) := by
  refine ⟨readAll_eq_iff.mp h, ?_, ?_⟩
  · obtain ⟨lost, hbs, hrest⟩ := (readAll_eq_iff.mp h).split
    refine ⟨lost, hbs, ?_, hrest⟩
    conv_rhs => rw [hbs]
    rw [List.length_append, Nat.add_sub_cancel_left]
  · rintro before shape after rfl
    have hlength := length_readAll before bs
    have hitems : items = (Shape.readAll before bs).1 ++
        (Shape.readAll (shape :: after) (Shape.readAll before bs).2).1 := by
      rw [readAll_append] at h
      exact (congrArg Prod.fst h).symm
    have hiff : items[before.length]? = some none ↔
        (Shape.readAll before bs).2.length < shape.width := by
      rw [hitems, ← hlength, List.getElem?_append_right (Nat.le_refl _), Nat.sub_self, readAll_cons,
        ← read_fst_eq_none_iff]
      exact Option.some_inj
    refine ⟨hiff, fun hnone hpos => hiff.mpr ?_⟩
    rw [hitems, ← hlength, List.take_left] at hnone
    obtain ⟨-, -, -, hleft⟩ := (accounts_readAll before bs).split
    rw [hleft hnone]
    exact hpos

/-- Two signed integers, and two bytes behind them. -/
def fourteenBytes : List UInt8 := ofInt32 (-7) ++ ofInt64 (Int64.minValue + 3) ++ [1, 2]

/-- Three reads for which there are bytes enough, two for which there are not, and one that takes
nothing. -/
def sixReads : List Shape := [.i32, .i64, .u8, .u32, .bytes (2 ^ 64 - 1), .bytes 0]

/-- What they find. -/
def sixItems : List (Option Item) :=
  [some (.i32 (-7)), some (.i64 (Int64.minValue + 3)), some (.u8 1), none, none, some (.bytes [])]

/-- The fourth read is too wide for the byte that it comes upon, and the byte is lost.  Nothing is
left for the fifth, however many bytes it asks for. -/
theorem reads_accounted_tooWide :
    Shape.readAll sixReads fourteenBytes = (sixItems, []) ∧
    Accounts sixReads fourteenBytes sixItems [] ∧
    (∃ lost, fourteenBytes = rewritten sixItems ++ lost ++ []) ∧
    (Shape.readAll [.i32, .i64, .u8] fourteenBytes).2.length < 4 ∧
    sixItems[4]? = some none := by
  have h : Shape.readAll sixReads fourteenBytes = (sixItems, []) := by decide
  obtain ⟨haccounts, ⟨lost, hsplit, -⟩, hfails⟩ := reads_accounted h
  obtain ⟨hfourth, -⟩ := hfails [.i32, .i64, .u8] .u32 [.bytes (2 ^ 64 - 1), .bytes 0] rfl
  obtain ⟨-, hfifth⟩ := hfails [.i32, .i64, .u8, .u32] (.bytes (2 ^ 64 - 1)) [.bytes 0] rfl
  exact ⟨h, haccounts, ⟨lost, hsplit⟩, hfourth.mp rfl, hfifth (by decide) (by decide)⟩

end RingOverlay.Bytes
