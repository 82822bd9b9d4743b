import Mathlib.Algebra.BigOperators.Group.List.Basic
import Mathlib.Tactic.Abel
import RingOverlay.Proofs.Traffic.Volume

/-!
# Traffic — calls to counters

Counters get any sequence of calls: packets are recorded, and from time to time the counters are
taken, which leaves zeros behind.  `snapshots c calls` are the counters that were taken, and `run c
calls` those in the end.

Taking the counters moves what they measure to the snapshot, and every other call adds one packet to
what they measure.  So the snapshots and the counters together measure what was recorded
(`Tame.run`), no matter when the counters were taken.

* `counting_exact`: **counters lose and invent nothing**, and no number overflows.
-/

namespace RingOverlay.Counters

/-- What is asked of counters. -/
inductive Call where
  | sent (payload : Int32)
  | received (payload : Int32)
  | relayed
  | take
  deriving DecidableEq, Repr

/-- The counters after a call. -/
def call (c : Counters) : Call → Counters
  | .sent payload => c.recordSent payload
  | .received payload => c.recordReceived payload
  | .relayed => c.recordRelayed
  | .take => c.take.2

/-- The counters after calls, oldest first. -/
def run (c : Counters) (calls : List Call) : Counters := calls.foldl call c

/-- The counters that calls take, oldest first. -/
def snapshots (c : Counters) : List Call → List Counters
  | [] => []
  | .take :: calls => c.take.1 :: c.take.2.snapshots calls
  | x :: calls => (c.call x).snapshots calls

/-- The payload that a call records as sent. -/
def Call.sent? : Call → Option Int
  | .sent payload => some payload.toInt
  | _ => none

/-- The payload that a call records as received. -/
def Call.received? : Call → Option Int
  | .received payload => some payload.toInt
  | _ => none

/-- How many calls of each kind there are, and the sums of their payloads. -/
def recorded (calls : List Call) : Volume where
  sent := (calls.filterMap Call.sent?).length
  received := (calls.filterMap Call.received?).length
  relayed := calls.count .relayed
  sentSum := (calls.filterMap Call.sent?).sum
  receivedSum := (calls.filterMap Call.received?).sum

/-- What a call adds to its counters, one packet and a payload, is a count of 32 bits and a sum of
64. -/
def Call.Fits (c : Counters) : Call → Prop
  | .sent payload => c.sent.toNat + 1 < 2 ^ 32 ∧ FitsInt64 (c.sentSum.toInt + payload.toInt)
  | .received payload =>
    c.received.toNat + 1 < 2 ^ 32 ∧ FitsInt64 (c.receivedSum.toInt + payload.toInt)
  | .relayed => c.relayed.toNat + 1 < 2 ^ 32
  | .take => True

variable {c : Counters} {calls : List Call} {x : Call}

/-! ### What is recorded -/

theorem recorded_append (before after : List Call) :
    recorded (before ++ after) = recorded before + recorded after := by
  ext <;> simp [recorded, List.filterMap_append, List.count_append]

theorem recorded_cons (x : Call) (calls : List Call) :
    recorded (x :: calls) = recorded [x] + recorded calls :=
  recorded_append [x] calls

theorem recorded_sent (payload : Int32) :
    recorded [.sent payload] = ⟨1, 0, 0, payload.toInt, 0⟩ :=
  congrArg (Volume.mk 1 0 0 · 0) (Int.add_zero _)

theorem recorded_received (payload : Int32) :
    recorded [.received payload] = ⟨0, 1, 0, 0, payload.toInt⟩ :=
  congrArg (Volume.mk 0 1 0 0) (Int.add_zero _)

theorem small_recorded (h : calls.length < 2 ^ 31) : (recorded calls).Small where
  sent := (List.length_filterMap_le _ _).trans_lt h
  received := (List.length_filterMap_le _ _).trans_lt h
  relayed := List.count_le_length.trans_lt h

theorem snapshots_cons (c : Counters) (x : Call) (calls : List Call) :
    c.snapshots (x :: calls) = c.snapshots [x] ++ (c.call x).snapshots calls := by
  cases x <;> rfl

theorem snapshots_append (c : Counters) (before after : List Call) :
    c.snapshots (before ++ after) = c.snapshots before ++ (c.run before).snapshots after := by
  induction before generalizing c with
  | nil => rfl
  | cons x before ih =>
    rw [List.cons_append, snapshots_cons, ih, snapshots_cons c x before, List.append_assoc]
    rfl

/-! ### Calls -/

/-- **A call** loses nothing: what the counters measured, and the packet it records, are measured by
the counters afterwards or by the snapshot that it takes. -/
theorem Tame.call (ht : c.Tame) (h : (c.volume + recorded [x]).Small) :
    (c.call x).Tame ∧
      ((c.snapshots [x]).map volume).sum + (c.call x).volume = c.volume + recorded [x] := by
  cases x with
  | sent payload =>
    rw [recorded_sent] at h ⊢
    obtain ⟨htame, hvolume⟩ := ht.counts_sent h
    exact ⟨htame, (zero_add _).trans hvolume⟩
  | received payload =>
    rw [recorded_received] at h ⊢
    obtain ⟨htame, hvolume⟩ := ht.counts_received h
    exact ⟨htame, (zero_add _).trans hvolume⟩
  | relayed =>
    obtain ⟨htame, hvolume⟩ := ht.counts_relayed h
    exact ⟨htame, (zero_add _).trans hvolume⟩
  | take => exact ⟨tame_zero, add_zero _⟩

/-- **And so do calls**, one after the other. -/
theorem Tame.run (ht : c.Tame) (h : (c.volume + recorded calls).Small) :
    (c.run calls).Tame ∧
      ((c.snapshots calls).map volume).sum + (c.run calls).volume = c.volume + recorded calls := by
  induction calls generalizing c with
  | nil => exact ⟨ht, (zero_add _).trans (add_zero _).symm⟩
  | cons x calls ih =>
    rw [recorded_cons, ← add_assoc] at h ⊢
    obtain ⟨htame, hcall⟩ := ht.call h.of_add
    rw [← hcall] at h ⊢
    obtain ⟨htame', hrun⟩ := ih htame (Volume.Small.of_add (by rwa [add_comm, ← add_assoc]))
    refine ⟨htame', ?_⟩
    rw [snapshots_cons, List.map_append, List.sum_append, add_assoc, add_assoc, ← hrun]
    rfl

/-- Counters that measure little have room for one packet more. -/
theorem Tame.fits (ht : c.Tame) (h : (c.volume + recorded [x]).Small) : x.Fits c := by
  cases x with
  | sent payload =>
    have hlt : c.sent.toNat + 1 < 2 ^ 31 := h.sent
    have hsum := natAbs_add_payload ht.sentSum payload
    refine ⟨by omega, ?_, ?_⟩ <;> omega
  | received payload =>
    have hlt : c.received.toNat + 1 < 2 ^ 31 := h.received
    have hsum := natAbs_add_payload ht.receivedSum payload
    refine ⟨by omega, ?_, ?_⟩ <;> omega
  | relayed =>
    have hlt : c.relayed.toNat + 1 < 2 ^ 31 := h.relayed
    exact hlt.trans (by decide)
  | take => trivial

/-- **Counters lose and invent nothing.**  In whichever order the calls of several sides come, as
long as there are fewer than 2³¹, the snapshots that are taken and the counters in the end add up to
the number of calls of each kind and the exact sums of their payloads.  No count and no sum leaves
its range on the way, and counters that have just been taken are zero. -/
theorem counting_exact (h : calls.length < 2 ^ 31) :
    ((zero.snapshots calls).map volume).sum + (zero.run calls).volume = recorded calls ∧
    (∀ before x after, calls = before ++ x :: after → x.Fits (zero.run before)) ∧
    zero.snapshots (calls ++ [.take, .take]) =
      zero.snapshots calls ++ [zero.run calls, zero] := by
  have hsmall : (zero.volume + recorded calls).Small := by
    change (0 + recorded calls).Small
    rw [zero_add]
    exact small_recorded h
  refine ⟨((tame_zero.run hsmall).2).trans (zero_add _), ?_, snapshots_append _ _ _⟩
  rintro before x after rfl
  rw [recorded_append, recorded_cons, ← add_assoc] at hsmall
  obtain ⟨htame, hbefore⟩ := tame_zero.run hsmall.of_add
  -- what the counters measure by then is part of what is recorded in the end
  have hpart : zero.volume + recorded before + (recorded [x] + recorded after) =
      (zero.run before).volume + recorded [x] +
        (((zero.snapshots before).map volume).sum + recorded after) := by
    rw [← hbefore]
    abel
  exact htame.fits (hpart ▸ hsmall).of_add

/-- The counters are taken with four packets on them, with one, and with none; a fifth is relayed
after that. -/
def takenThrice : List Call :=
  [.sent (-5), .sent Int32.maxValue, .received 7, .relayed, .take, .received Int32.minValue, .take,
    .take, .relayed]

/-- The extreme payloads are summed up like any other. -/
theorem counting_exact_takenThrice :
    takenThrice.length < 2 ^ 31 ∧
    recorded takenThrice = ⟨2, 2, 2, 2 ^ 31 - 6, 7 - 2 ^ 31⟩ ∧
    (zero.snapshots takenThrice).length = 3 ∧
    ((zero.snapshots takenThrice).map volume).sum + (zero.run takenThrice).volume =
      recorded takenThrice := by
  have h : takenThrice.length < 2 ^ 31 := by decide
  exact ⟨h, by decide, rfl, (counting_exact h).1⟩

end RingOverlay.Counters
