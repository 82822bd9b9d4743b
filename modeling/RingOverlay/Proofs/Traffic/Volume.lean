import Mathlib.Algebra.Group.Basic
import Mathlib.Order.Basic
import RingOverlay.Proofs.Traffic.Counters

/-!
# Traffic — volumes

The *volume* of traffic is how many packets were sent, received and relayed, and what payloads were
sent and received.  Volumes are exact and add up field by field.  Counters measure one
(`Counters.volume`): a packet that they record adds its own, as long as there are few of its kind
(`Tame.counts_sent`, `Tame.counts_received`, `Tame.counts_relayed`).
-/

namespace RingOverlay

/-- How many packets were sent, received and relayed, and the payloads sent and received. -/
@[ext]
structure Volume where
  sent : Nat
  received : Nat
  relayed : Nat
  sentSum : Int
  receivedSum : Int
  deriving DecidableEq, Repr

namespace Volume

instance : Zero Volume := ⟨⟨0, 0, 0, 0, 0⟩⟩

instance : Add Volume where
  add v w := ⟨v.sent + w.sent, v.received + w.received, v.relayed + w.relayed,
    v.sentSum + w.sentSum, v.receivedSum + w.receivedSum⟩

variable (v w : Volume)

@[simp] theorem sent_zero : (0 : Volume).sent = 0 := rfl
@[simp] theorem received_zero : (0 : Volume).received = 0 := rfl
@[simp] theorem relayed_zero : (0 : Volume).relayed = 0 := rfl
@[simp] theorem sentSum_zero : (0 : Volume).sentSum = 0 := rfl
@[simp] theorem receivedSum_zero : (0 : Volume).receivedSum = 0 := rfl
@[simp] theorem sent_add : (v + w).sent = v.sent + w.sent := rfl
@[simp] theorem received_add : (v + w).received = v.received + w.received := rfl
@[simp] theorem relayed_add : (v + w).relayed = v.relayed + w.relayed := rfl
@[simp] theorem sentSum_add : (v + w).sentSum = v.sentSum + w.sentSum := rfl
@[simp] theorem receivedSum_add : (v + w).receivedSum = v.receivedSum + w.receivedSum := rfl

instance : AddCancelCommMonoid Volume where
  add_assoc u v w := by ext <;> simp [add_assoc]
  zero_add v := by ext <;> simp
  add_zero v := by ext <;> simp
  add_comm v w := by ext <;> simp [add_comm]
  add_left_cancel u v w h := by
    have h' := Volume.ext_iff.mp h
    ext <;> simp at h' <;> omega
  nsmul := nsmulRec

/-- Fewer packets of each kind than a counter counts to. -/
structure Small : Prop where
  sent : v.sent < 2 ^ 31
  received : v.received < 2 ^ 31
  relayed : v.relayed < 2 ^ 31

/-- No payload without a packet. -/
structure Plain : Prop where
  sent : v.sent = 0 → v.sentSum = 0
  received : v.received = 0 → v.receivedSum = 0

variable {v w}

theorem Small.of_add (h : (v + w).Small) : v.Small :=
  ⟨(Nat.le_add_right _ _).trans_lt h.sent, (Nat.le_add_right _ _).trans_lt h.received,
    (Nat.le_add_right _ _).trans_lt h.relayed⟩

/-- A plain volume is nothing if it is a part of nothing. -/
theorem Plain.eq_zero (h : v.Plain) (hadd : v + w = 0) : v = 0 := by
  have hfields := Volume.ext_iff.mp hadd
  simp only [sent_add, received_add, relayed_add, sent_zero, received_zero, relayed_zero] at hfields
  have hsent : v.sent = 0 := by omega
  have hreceived : v.received = 0 := by omega
  ext
  · exact hsent
  · exact hreceived
  · simp only [relayed_zero]; omega
  · exact h.sent hsent
  · exact h.received hreceived

end Volume

/-- The traffic that a summary reports. -/
def Summary.volume (s : Summary) : Volume :=
  ⟨s.sent.toNat, s.received.toNat, s.relayed.toNat, s.sentSum.toInt, s.receivedSum.toInt⟩

/-! ### What counters measure -/

namespace Counters

variable {c : Counters}

/-- The traffic that has been counted. -/
def volume (c : Counters) : Volume :=
  ⟨c.sent.toNat, c.received.toNat, c.relayed.toNat, c.sentSum.toInt, c.receivedSum.toInt⟩

theorem Tame.plain (ht : c.Tame) : c.volume.Plain := by
  have hsent := ht.sentSum
  have hreceived := ht.receivedSum
  refine ⟨fun h => ?_, fun h => ?_⟩
  all_goals simp only [volume] at h ⊢; omega

/-- A packet that is recorded as sent adds one and its payload, as long as the counters can count
it. -/
theorem Tame.counts_sent (ht : c.Tame) {p : Int32}
    (h : (c.volume + ⟨1, 0, 0, p.toInt, 0⟩).Small) :
    (c.recordSent p).Tame ∧ (c.recordSent p).volume = c.volume + ⟨1, 0, 0, p.toInt, 0⟩ := by
  have hlt : c.sent.toNat < maxCount.toNat := Nat.lt_pred_of_succ_lt h.sent
  refine ⟨ht.recordSent hlt p, ?_⟩
  ext
  · exact toNat_recordSent hlt p
  · rfl
  · rfl
  · exact ht.toInt_recordSent hlt p
  · exact (Int.add_zero _).symm

/-- So does one that is recorded as received. -/
theorem Tame.counts_received (ht : c.Tame) {p : Int32}
    (h : (c.volume + ⟨0, 1, 0, 0, p.toInt⟩).Small) :
    (c.recordReceived p).Tame ∧
      (c.recordReceived p).volume = c.volume + ⟨0, 1, 0, 0, p.toInt⟩ := by
  have hlt : c.received.toNat < maxCount.toNat := Nat.lt_pred_of_succ_lt h.received
  refine ⟨ht.recordReceived hlt p, ?_⟩
  ext
  · rfl
  · exact toNat_recordReceived hlt p
  · rfl
  · exact (Int.add_zero _).symm
  · exact ht.toInt_recordReceived hlt p

/-- Of one that is recorded as relayed, the payload is left out. -/
theorem Tame.counts_relayed (ht : c.Tame) (h : (c.volume + ⟨0, 0, 1, 0, 0⟩).Small) :
    c.recordRelayed.Tame ∧ c.recordRelayed.volume = c.volume + ⟨0, 0, 1, 0, 0⟩ := by
  have hlt : c.relayed.toNat < maxCount.toNat := Nat.lt_pred_of_succ_lt h.relayed
  refine ⟨ht.recordRelayed, ?_⟩
  ext
  · rfl
  · rfl
  · exact toNat_recordRelayed hlt
  · exact (Int.add_zero _).symm
  · exact (Int.add_zero _).symm

end Counters

end RingOverlay
