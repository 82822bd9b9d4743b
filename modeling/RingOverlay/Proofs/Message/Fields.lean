import RingOverlay.Message.Decode
import RingOverlay.Message.Encode
import RingOverlay.Proofs.Bytes.BigEndian
import RingOverlay.Proofs.Finger.Tables

/-!
# Message — fields read as they were written

For each field of a payload, reading it finds a value and leaves `rest` if and only if the payload
is what is written for that value, followed by `rest`.  So nothing is lost on the way out, and there
is no second way to write a value that would be read as well.  Lengths are limited by what four
bytes can say (`maxLength`), packet counts by `maxCount`.

Two readers read one after the other (`bind_eq_ok`), so a message is taken apart by rewriting with
these equivalences.
-/

namespace RingOverlay

/-- The greatest length that a payload can spell. -/
def Message.maxLength : Nat := 2147483647

open Message (maxLength)

namespace Payload

/-- The bytes of a string, as it is written, say which string it is. -/
theorem fromUTF8?_eq_some_iff {bytes : List UInt8} {s : String} :
    String.fromUTF8? bytes.toByteArray = some s ↔ bytes = s.toUTF8.data.toList := by
  unfold String.fromUTF8?
  constructor
  · intro h
    split at h
    · cases h
      change bytes = bytes.toByteArray.data.toList
      rw [List.data_toByteArray]
    · cases h
  · rintro rfl
    have hbytes : s.toUTF8.data.toList.toByteArray = s.toByteArray := by
      rw [ByteArray.ext_iff, List.data_toByteArray]
      rfl
    have hvalid : s.toUTF8.data.toList.toByteArray.IsValidUTF8 := hbytes ▸ s.isValidUTF8
    rw [dif_pos hvalid]
    exact congrArg some (String.toByteArray_inj.mp hbytes)

/-- A count that the wire carries is written like the number that it is. -/
theorem ofCount_of_le {n : UInt32} (h : n ≤ maxCount) : ofCount n = Bytes.encodeNat 4 n.toNat := by
  have hclamp : Message.clampCount n = n := if_pos h
  rw [ofCount, hclamp, Bytes.ofUInt32]

end Payload

namespace Decoder

open Bytes

variable {α β : Type} {d : Decoder α} {f : α → Decoder β} {bs rest : List UInt8}
  {a : α} {b c : β}

/-! ### One reader after the other -/

theorem pure_eq_ok : (pure b : Decoder β) bs = .ok (c, rest) ↔ b = c ∧ bs = rest := by
  change Except.ok (b, bs) = Except.ok (c, rest) ↔ _
  rw [Except.ok.injEq, Prod.mk.injEq]

theorem throw_ne_ok {e : DecodeError} : (throw e : Decoder β) bs ≠ .ok (c, rest) := by
  intro h
  cases h

theorem bind_eq_ok : (d >>= f) bs = .ok (b, rest) ↔
    ∃ a mid, d bs = .ok (a, mid) ∧ f a mid = .ok (b, rest) := by
  change (d bs >>= fun x => f x.1 x.2) = _ ↔ _
  cases d bs with
  | error e => simp [bind, Except.bind]
  | ok x => simp [bind, Except.bind, Prod.ext_iff, and_assoc]

theorem guard_eq_ok {p : Prop} [Decidable p] {d : Decoder β} {e : DecodeError} :
    (if p then d else throw e) bs = .ok (b, rest) ↔ p ∧ d bs = .ok (b, rest) := by
  by_cases hp : p
  · rw [if_pos hp]
    exact (and_iff_right hp).symm
  · rw [if_neg hp]
    exact iff_of_false throw_ne_ok fun h => hp h.1

theorem ofRead_eq_ok {r : Read β} : ofRead r bs = .ok (b, rest) ↔ r bs = (some b, rest) := by
  unfold ofRead
  cases r bs with
  | mk found left =>
    cases found with
    | none => simp
    | some a => simp

/-! ### Integers -/

theorem i32_eq_ok {n : Int32} : i32 bs = .ok (n, rest) ↔ bs = ofInt32 n ++ rest := by
  rw [i32, ofRead_eq_ok, Read.i32, Read.map_eq_some_iff]
  constructor
  · rintro ⟨front, hlen, rfl, rfl⟩
    rw [ofInt32_toInt32 hlen]
  · intro h
    exact ⟨_, length_ofInt32 n, toInt32_ofInt32 n, h⟩

theorem i64_eq_ok {n : Int64} : i64 bs = .ok (n, rest) ↔ bs = ofInt64 n ++ rest := by
  rw [i64, ofRead_eq_ok, Read.i64, Read.map_eq_some_iff]
  constructor
  · rintro ⟨front, hlen, rfl, rfl⟩
    rw [ofInt64_toInt64 hlen]
  · intro h
    exact ⟨_, length_ofInt64 n, toInt64_ofInt64 n, h⟩

/-- A signed integer in front spells the number `k` if `k` is in front, and fits. -/
theorem exists_i32_iff {k : Nat} : (∃ n : Int32, n.toInt = k ∧ bs = ofInt32 n ++ rest) ↔
    k ≤ maxLength ∧ bs = encodeNat 4 k ++ rest := by
  constructor
  · rintro ⟨n, hn, rfl⟩
    have hlt := n.toInt_lt
    rw [hn] at hlt
    refine ⟨?_, by rw [ofInt32_of_toInt hn]⟩
    unfold maxLength
    omega
  · rintro ⟨hk, rfl⟩
    have hn : (Int32.ofNat k).toInt = k := by
      refine Int32.toInt_ofNat_of_lt ?_
      unfold maxLength at hk
      omega
    exact ⟨Int32.ofNat k, hn, by rw [ofInt32_of_toInt hn]⟩

/-- A reader that reads a signed integer and then insists on its being `k`. -/
theorem natural_eq_ok {f : Int32 → Decoder β} {k : Nat}
    (hf : ∀ n mid, f n mid = .ok (b, rest) ↔ n.toInt = k ∧ mid = rest) :
    (i32 >>= f) bs = .ok (b, rest) ↔ k ≤ maxLength ∧ bs = encodeNat 4 k ++ rest := by
  rw [bind_eq_ok, ← exists_i32_iff]
  refine exists_congr fun n => ?_
  constructor
  · rintro ⟨mid, hbs, hrest⟩
    obtain ⟨hn, rfl⟩ := (hf n mid).mp hrest
    exact ⟨hn, i32_eq_ok.mp hbs⟩
  · rintro ⟨hn, hbs⟩
    exact ⟨rest, i32_eq_ok.mpr hbs, (hf n rest).mpr ⟨hn, rfl⟩⟩

theorem length_eq_ok {n : Nat} : length bs = .ok (n, rest) ↔
    n ≤ maxLength ∧ bs = Payload.ofLength n ++ rest := by
  refine natural_eq_ok fun k mid => ?_
  rw [guard_eq_ok, pure_eq_ok, ← and_assoc]
  refine and_congr_left' ⟨fun ⟨hk, hn⟩ => ?_, fun hk => ⟨?_, ?_⟩⟩
  · rw [← hn, Int.toNat_of_nonneg hk]
  · exact hk ▸ Int.natCast_nonneg n
  · rw [hk, Int.toNat_natCast]

theorem count_eq_ok {n : UInt32} : count bs = .ok (n, rest) ↔
    n ≤ maxCount ∧ bs = Payload.ofCount n ++ rest := by
  have hcount : count bs = .ok (n, rest) ↔
      n.toNat ≤ maxLength ∧ bs = encodeNat 4 n.toNat ++ rest := by
    refine natural_eq_ok fun k mid => ?_
    rw [guard_eq_ok, pure_eq_ok, ← and_assoc]
    refine and_congr_left' ⟨fun ⟨hk, hn⟩ => ?_, fun hk => ?_⟩
    · rw [← hn, Int32.toNat_toUInt32_of_le (Int32.le_iff_toInt_le.mpr hk)]
      exact (Int.toNat_of_nonneg hk).symm
    · have hnonneg : 0 ≤ k.toInt := hk ▸ Int.natCast_nonneg n.toNat
      refine ⟨hnonneg, UInt32.toNat_inj.mp ?_⟩
      rw [Int32.toNat_toUInt32_of_le (Int32.le_iff_toInt_le.mpr hnonneg), Int32.toNatClampNeg, hk,
        Int.toNat_natCast]
  rw [hcount]
  exact and_congr_right fun hn => by rw [Payload.ofCount_of_le hn]

/-- An identifier is written like its position on the ring. -/
theorem ofInt_eq_ok {n : Int} {i : NodeId} : NodeId.ofInt n = .ok i ↔ n = i.val := by
  unfold NodeId.ofInt
  constructor
  · intro h
    split at h
    · next hn =>
      cases h
      exact (Int.toNat_of_nonneg hn.1).symm
    · cases h
  · rintro rfl
    rw [dif_pos ⟨Int.natCast_nonneg _, Int.ofNat_lt.mpr i.isLt⟩]
    rfl

theorem id_eq_ok {i : NodeId} : id bs = .ok (i, rest) ↔ bs = Payload.ofId i ++ rest := by
  have hi : i.val ≤ maxLength := Nat.le_trans (Nat.le_of_lt i.isLt) (by decide)
  have hread : id bs = .ok (i, rest) ↔ i.val ≤ maxLength ∧ bs = encodeNat 4 i.val ++ rest := by
    refine natural_eq_ok fun n mid => ?_
    rw [← ofInt_eq_ok]
    cases NodeId.ofInt n.toInt with
    | error e => simp [throw_ne_ok]
    | ok j => rw [pure_eq_ok, Except.ok.injEq]
  have hwritten : Payload.ofId i = encodeNat 4 i.val :=
    ofInt32_of_toInt (Int32.toInt_ofNat_of_lt (Nat.lt_succ_of_le hi))
  rw [hread, hwritten]
  exact and_iff_right hi

/-! ### Lists and strings -/

theorem times_eq_ok {e : α → List UInt8}
    (hd : ∀ {bs rest : List UInt8} {a : α}, d bs = .ok (a, rest) ↔ bs = e a ++ rest)
    {n : Nat} {as : List α} : times d n bs = .ok (as, rest) ↔
      as.length = n ∧ bs = as.flatMap e ++ rest := by
  induction n generalizing as bs rest with
  | zero =>
    rw [times, pure_eq_ok, List.length_eq_zero_iff]
    constructor
    · rintro ⟨rfl, rfl⟩
      exact ⟨rfl, rfl⟩
    · rintro ⟨rfl, rfl⟩
      exact ⟨rfl, rfl⟩
  | succ n ih =>
    simp only [times, bind_eq_ok, hd, ih, pure_eq_ok]
    constructor
    · rintro ⟨a, _, rfl, as', _, ⟨rfl, rfl⟩, rfl, rfl⟩
      exact ⟨rfl, by rw [List.flatMap_cons, List.append_assoc]⟩
    · rintro ⟨hlen, rfl⟩
      cases as with
      | nil => cases hlen
      | cons a as =>
        rw [List.flatMap_cons, List.append_assoc]
        exact ⟨a, _, rfl, as, _, ⟨Nat.succ.inj hlen, rfl⟩, rfl, rfl⟩

theorem ids_eq_ok {is : List NodeId} : ids bs = .ok (is, rest) ↔
    is.length ≤ maxLength ∧ bs = Payload.ofIds is ++ rest := by
  simp only [ids, bind_eq_ok, length_eq_ok, times_eq_ok id_eq_ok, Payload.ofIds, List.append_assoc]
  constructor
  · rintro ⟨n, _, ⟨hn, rfl⟩, rfl, rfl⟩
    exact ⟨hn, rfl⟩
  · rintro ⟨hn, rfl⟩
    exact ⟨_, _, ⟨hn, rfl⟩, rfl, rfl⟩

theorem string_eq_ok {s : String} : string bs = .ok (s, rest) ↔
    s.utf8ByteSize ≤ maxLength ∧ bs = Payload.ofString s ++ rest := by
  simp only [string, bind_eq_ok, length_eq_ok, ofRead_eq_ok, Read.take_eq_some_iff]
  constructor
  · rintro ⟨n, _, ⟨hn, rfl⟩, bytes, mid, ⟨rfl, rfl⟩, hs⟩
    cases hvalid : String.fromUTF8? bytes.toByteArray with
    | none =>
      rw [hvalid] at hs
      exact absurd hs throw_ne_ok
    | some t =>
      rw [hvalid, pure_eq_ok] at hs
      obtain ⟨rfl, rfl⟩ := hs
      obtain rfl := Payload.fromUTF8?_eq_some_iff.mp hvalid
      exact ⟨hn, (List.append_assoc ..).symm⟩
  · rintro ⟨hn, rfl⟩
    refine ⟨_, _, ⟨hn, List.append_assoc ..⟩, s.toUTF8.data.toList, rest, ⟨rfl, rfl⟩, ?_⟩
    rw [Payload.fromUTF8?_eq_some_iff.mpr rfl]
    exact pure_eq_ok.mpr ⟨rfl, rfl⟩

theorem address_eq_ok {a : PeerAddress} : address bs = .ok (a, rest) ↔
    a.host.utf8ByteSize ≤ maxLength ∧ bs = Payload.ofAddress a ++ rest := by
  simp only [address, bind_eq_ok, string_eq_ok, guard_eq_ok, pure_eq_ok, i32_eq_ok]
  constructor
  · rintro ⟨host, _, ⟨hlen, rfl⟩, port, _, rfl, ⟨hnonneg, hlt⟩, rfl, rfl⟩
    refine ⟨hlen, ?_⟩
    have hport : (UInt16.ofNat port.toInt.toNat).toNat = port.toInt.toNat :=
      UInt16.toNat_ofNat_of_lt' (by omega)
    rw [Payload.ofAddress, List.append_assoc, hport,
      ← ofInt32_of_toInt (Int.toNat_of_nonneg hnonneg).symm]
  · rintro ⟨hlen, rfl⟩
    have hlt : a.port.toNat < UInt16.size := a.port.toNat_lt
    have hport : (Int32.ofNat a.port.toNat).toInt = a.port.toNat :=
      Int32.toInt_ofNat_of_lt (Nat.lt_trans hlt (by decide))
    refine ⟨a.host, _, ⟨hlen, List.append_assoc ..⟩, Int32.ofNat a.port.toNat, rest, ?_, ?_⟩
    · rw [ofInt32_of_toInt hport]
    · rw [hport]
      refine ⟨⟨Int.natCast_nonneg _, Int.ofNat_lt.mpr hlt⟩, ?_, rfl⟩
      rw [Int.toNat_natCast, UInt16.ofNat_toNat]

/-! ### Finger tables -/

theorem entries_eq_ok {n : Nat} {t t' : FingerTable} : entries n t bs = .ok (t', rest) ↔
    ∃ es, es.length = n ∧ t'.entries = t.entries ++ es ∧
      (∀ e ∈ es, e.address.host.utf8ByteSize ≤ maxLength) ∧
      bs = es.flatMap Payload.ofEntry ++ rest := by
  induction n generalizing t bs with
  | zero =>
    rw [entries, pure_eq_ok]
    constructor
    · rintro ⟨rfl, rfl⟩
      exact ⟨[], rfl, (List.append_nil _).symm, by simp, rfl⟩
    · rintro ⟨es, hlen, hentries, -, rfl⟩
      obtain rfl := List.length_eq_zero_iff.mp hlen
      rw [List.append_nil] at hentries
      exact ⟨FingerTable.eq_of_entries hentries.symm, rfl⟩
  | succ n ih =>
    simp only [entries, bind_eq_ok, id_eq_ok, address_eq_ok]
    constructor
    · rintro ⟨i, _, rfl, a, mid, ⟨ha, rfl⟩, hpush⟩
      cases ht : t.push ⟨i, a⟩ with
      | error refusal =>
        rw [ht] at hpush
        exact absurd hpush throw_ne_ok
      | ok t₁ =>
        rw [ht] at hpush
        obtain ⟨es, hlen, hentries, hes, rfl⟩ := ih.mp hpush
        refine ⟨⟨i, a⟩ :: es, congrArg (· + 1) hlen, ?_, ?_, ?_⟩
        · rw [hentries, FingerTable.push_entries ht, List.append_assoc, List.singleton_append]
        · exact List.forall_mem_cons.mpr ⟨ha, hes⟩
        · rw [List.flatMap_cons, Payload.ofEntry, List.append_assoc, List.append_assoc]
    · rintro ⟨es, hlen, hentries, hes, rfl⟩
      cases es with
      | nil => cases hlen
      | cons e es =>
        obtain ⟨ha, hes⟩ := List.forall_mem_cons.mp hes
        obtain ⟨t₁, ht, ht₁⟩ := FingerTable.push_of_entries hentries
        refine ⟨e.id, _, ?_, e.address, es.flatMap Payload.ofEntry ++ rest, ⟨ha, rfl⟩, ?_⟩
        · rw [List.flatMap_cons, Payload.ofEntry, List.append_assoc, List.append_assoc]
        · rw [ht]
          refine ih.mpr ⟨es, Nat.succ.inj hlen, ?_, hes, rfl⟩
          rw [hentries, ht₁, List.append_assoc, List.singleton_append]

/-- A table of `n` fingers. -/
theorem entries_empty_eq_ok {n : Nat} {t : FingerTable} : entries n .empty bs = .ok (t, rest) ↔
    t.size = n ∧ (∀ e ∈ t.entries, e.address.host.utf8ByteSize ≤ maxLength) ∧
      bs = t.entries.flatMap Payload.ofEntry ++ rest := by
  rw [entries_eq_ok]
  constructor
  · rintro ⟨es, hlen, hentries, h⟩
    obtain rfl : t.entries = es := hentries
    exact ⟨hlen, h⟩
  · rintro ⟨hlen, h⟩
    exact ⟨t.entries, hlen, rfl, h⟩

/-! ### Whole payloads -/

theorem run_eq_ok : d.run bs = .ok a ↔ d bs = .ok (a, []) := by
  unfold run
  cases d bs with
  | error e => simp
  | ok x =>
    obtain ⟨b, left⟩ := x
    cases left with
    | nil => simp
    | cons y ys => simp

end Decoder

end RingOverlay
