import Mathlib.Algebra.Ring.Int.Defs
import Mathlib.Algebra.Ring.Nat
import RingOverlay.Traffic.Counters

/-!
# Traffic — exact counting

Counters are machine integers: packet counts stop at `maxCount`, and sums wrap.  Neither happens
while fewer than `maxCount` packets have been counted and the sums are *tame*, no larger than that
many 32-bit payloads can make them: then recording a packet adds one to its count and its payload to
its sum, and keeps the sums tame.
-/

namespace RingOverlay

/-- An integer that 64 bits hold. -/
def FitsInt64 (i : Int) : Prop := -2 ^ 63 ≤ i ∧ i < 2 ^ 63

namespace Counters

/-- No sum is larger than as many payloads as were counted can make it. -/
structure Tame (c : Counters) : Prop where
  sentSum : c.sentSum.toInt.natAbs ≤ 2 ^ 31 * c.sent.toNat
  receivedSum : c.receivedSum.toInt.natAbs ≤ 2 ^ 31 * c.received.toNat

theorem tame_zero : zero.Tame := ⟨by decide, by decide⟩

/-- No count is more than a summary can report. -/
structure Bounded (c : Counters) : Prop where
  sent : c.sent ≤ maxCount
  received : c.received ≤ maxCount
  relayed : c.relayed ≤ maxCount

theorem bounded_zero : zero.Bounded := ⟨by decide, by decide, by decide⟩

/-! ### Machine integers -/

theorem toNat_maxCount : maxCount.toNat = 2 ^ 31 - 1 := rfl

theorem toNat_bump {n : UInt32} (h : n.toNat < maxCount.toNat) :
    (bump n).toNat = n.toNat + 1 := by
  have hm := toNat_maxCount
  have hn : (n + 1).toNat = n.toNat + 1 := by
    rw [UInt32.toNat_add]
    exact Nat.mod_eq_of_lt (by simp; omega)
  have hle : n + 1 ≤ maxCount := UInt32.le_iff_toNat_le.mpr (by omega)
  rw [bump, show min (n + 1) maxCount = n + 1 from if_pos hle, hn]

/-- A packet more, up to the most that can be counted. -/
theorem toNat_bump_min {n : UInt32} (h : n.toNat ≤ maxCount.toNat) :
    (bump n).toNat = min (n.toNat + 1) maxCount.toNat := by
  rcases Nat.lt_or_eq_of_le h with hlt | heq
  · rw [toNat_bump hlt]
    omega
  · obtain rfl := UInt32.toNat_inj.mp heq
    decide

theorem bump_le (n : UInt32) : bump n ≤ maxCount := by
  by_cases h : n + 1 ≤ maxCount
  · rw [bump, show min (n + 1) maxCount = n + 1 from if_pos h]
    exact h
  · rw [bump, show min (n + 1) maxCount = maxCount from if_neg h]
    exact UInt32.le_refl _

/-- A tame sum and one more payload do not wrap. -/
theorem toInt_add_payload {s : Int64} {n : UInt32} (hs : s.toInt.natAbs ≤ 2 ^ 31 * n.toNat)
    (hn : n.toNat < maxCount.toNat) (p : Int32) :
    (s + p.toInt64).toInt = s.toInt + p.toInt := by
  have hm := toNat_maxCount
  have hp := p.le_toInt
  have hp' := p.toInt_lt
  rw [Int64.toInt_add, Int32.toInt_toInt64]
  exact Int.bmod_eq_of_le (by omega) (by omega)

theorem natAbs_add_payload {s : Int64} {n : UInt32} (hs : s.toInt.natAbs ≤ 2 ^ 31 * n.toNat)
    (p : Int32) : (s.toInt + p.toInt).natAbs ≤ 2 ^ 31 * (n.toNat + 1) := by
  have hp := p.le_toInt
  have hp' := p.toInt_lt
  omega

/-! ### Recording -/

variable {c : Counters}

theorem toNat_recordSent (h : c.sent.toNat < maxCount.toNat) (p : Int32) :
    (c.recordSent p).sent.toNat = c.sent.toNat + 1 :=
  toNat_bump h

theorem toNat_recordReceived (h : c.received.toNat < maxCount.toNat) (p : Int32) :
    (c.recordReceived p).received.toNat = c.received.toNat + 1 :=
  toNat_bump h

theorem toNat_recordRelayed (h : c.relayed.toNat < maxCount.toNat) :
    c.recordRelayed.relayed.toNat = c.relayed.toNat + 1 :=
  toNat_bump h

theorem Tame.toInt_recordSent (ht : c.Tame) (h : c.sent.toNat < maxCount.toNat) (p : Int32) :
    (c.recordSent p).sentSum.toInt = c.sentSum.toInt + p.toInt :=
  toInt_add_payload ht.sentSum h p

theorem Tame.toInt_recordReceived (ht : c.Tame) (h : c.received.toNat < maxCount.toNat)
    (p : Int32) : (c.recordReceived p).receivedSum.toInt = c.receivedSum.toInt + p.toInt :=
  toInt_add_payload ht.receivedSum h p

theorem Tame.recordSent (ht : c.Tame) (h : c.sent.toNat < maxCount.toNat) (p : Int32) :
    (c.recordSent p).Tame := by
  refine ⟨?_, ht.receivedSum⟩
  rw [ht.toInt_recordSent h, toNat_recordSent h]
  exact natAbs_add_payload ht.sentSum p

theorem Tame.recordReceived (ht : c.Tame) (h : c.received.toNat < maxCount.toNat) (p : Int32) :
    (c.recordReceived p).Tame := by
  refine ⟨ht.sentSum, ?_⟩
  rw [ht.toInt_recordReceived h, toNat_recordReceived h]
  exact natAbs_add_payload ht.receivedSum p

theorem Tame.recordRelayed (ht : c.Tame) : c.recordRelayed.Tame := ⟨ht.sentSum, ht.receivedSum⟩

/-- A batch of packets sent adds its size and its payloads, and leaves the rest alone. -/
theorem Tame.foldl_recordSent (ps : List Int32) (ht : c.Tame)
    (h : c.sent.toNat + ps.length ≤ maxCount.toNat) :
    (ps.foldl Counters.recordSent c).Tame ∧
    (ps.foldl Counters.recordSent c).sent.toNat = c.sent.toNat + ps.length ∧
    (ps.foldl Counters.recordSent c).sentSum.toInt =
      c.sentSum.toInt + (ps.map Int32.toInt).sum ∧
    (ps.foldl Counters.recordSent c).received = c.received ∧
    (ps.foldl Counters.recordSent c).receivedSum = c.receivedSum ∧
    (ps.foldl Counters.recordSent c).relayed = c.relayed := by
  induction ps generalizing c with
  | nil => exact ⟨ht, rfl, by simp, rfl, rfl, rfl⟩
  | cons p ps ih =>
    rw [List.length_cons] at h
    have hlt : c.sent.toNat < maxCount.toNat := by omega
    have hone := toNat_recordSent hlt p
    obtain ⟨htame, hsent, hsum, hrest⟩ := ih (ht.recordSent hlt p) (by omega)
    refine ⟨htame, ?_, ?_, hrest⟩
    · rw [List.foldl_cons, hsent, hone, List.length_cons]
      omega
    · rw [List.foldl_cons, hsum, ht.toInt_recordSent hlt, List.map_cons, List.sum_cons]
      omega

end Counters

end RingOverlay
