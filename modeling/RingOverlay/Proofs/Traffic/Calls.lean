import Mathlib.Algebra.Order.BigOperators.Group.List
import Mathlib.Algebra.Order.Ring.Nat
import Mathlib.Data.Fintype.Card
import Mathlib.Data.List.DropRight
import RingOverlay.Proofs.Traffic.Collector
import RingOverlay.Proofs.Traffic.Counters

/-!
# Traffic — calls to a collector

A collector gets any sequence of calls: summaries are added, and it is cleared or a report is taken.
What counts at any time are the summaries `heard` since it last started over
(`run_eq_collect`), and of those the last word of each node.

* `Totals.sumUp_ofRows`: the totals of a report are the exact sums of its columns, as far as 64 bits
  hold them.  The packet counts always fit, for a report has a row for each identifier at most.
* `Collector.reports_last_words`: **a report has the last word of every node heard of, and nothing
  else**, whatever came before and in whichever order different nodes were heard.
-/

namespace RingOverlay

/-! ### Totals -/

namespace Totals

/-- The totals are the sums of the columns. -/
structure SumUp (t : Totals) (rows : List Summary) : Prop where
  sent : t.sent.toNat = (rows.map fun s => s.sent.toNat).sum
  received : t.received.toNat = (rows.map fun s => s.received.toNat).sum
  relayed : t.relayed.toNat = (rows.map fun s => s.relayed.toNat).sum
  sentSum : t.sentSum.toInt = (rows.map fun s => s.sentSum.toInt).sum
  receivedSum : t.receivedSum.toInt = (rows.map fun s => s.receivedSum.toInt).sum

/-- The sums of payloads that 64 bits hold. -/
def Fit (rows : List Summary) : Prop :=
  FitsInt64 (rows.map fun s => s.sentSum.toInt).sum ∧
    FitsInt64 (rows.map fun s => s.receivedSum.toInt).sum

variable {rows : List Summary}

/-- A column of packet counts is added up modulo 2⁶⁴. -/
theorem toNat_foldl_add {column : Totals → UInt64} {f : Summary → UInt32}
    (h : ∀ t s, column (t.add s) = column t + (f s).toUInt64) (rows : List Summary) (t : Totals) :
    (column (rows.foldl add t)).toNat =
      ((column t).toNat + (rows.map fun s => (f s).toNat).sum) % 2 ^ 64 := by
  induction rows generalizing t with
  | nil => simp [Nat.mod_eq_of_lt (column t).toNat_lt]
  | cons s rows ih =>
    rw [List.foldl_cons, ih, h, List.map_cons, List.sum_cons, UInt64.toNat_add,
      UInt32.toNat_toUInt64, Nat.mod_add_mod, Nat.add_assoc]

/-- A column of payload sums is added up in two's complement. -/
theorem toInt_foldl_add {column : Totals → Int64} {f : Summary → Int64}
    (h : ∀ t s, column (t.add s) = column t + f s) (rows : List Summary) (t : Totals) :
    (column (rows.foldl add t)).toInt =
      ((column t).toInt + (rows.map fun s => (f s).toInt).sum).bmod (2 ^ 64) := by
  induction rows generalizing t with
  | nil => simp
  | cons s rows ih =>
    rw [List.foldl_cons, ih, h, List.map_cons, List.sum_cons, Int64.toInt_add, Int.bmod_add_bmod,
      Int.add_assoc]

/-- With a row for each identifier at most, packet counts stay below 2⁶⁴. -/
theorem sum_counts_lt (f : Summary → UInt32) (h : rows.length ≤ ringSize) :
    (rows.map fun s => (f s).toNat).sum < 2 ^ 64 := by
  have hle : ∀ n ∈ rows.map fun s => (f s).toNat, n ≤ 2 ^ 32 := by
    intro n hn
    obtain ⟨s, -, rfl⟩ := List.mem_map.mp hn
    exact Nat.le_of_lt (f s).toNat_lt
  have hsum := List.sum_le_card_nsmul _ _ hle
  rw [List.length_map, Nat.nsmul_eq_mul] at hsum
  have hring : ringSize = 128 := rfl
  omega

theorem toNat_ofRows {column : Totals → UInt64} {f : Summary → UInt32} (hzero : column zero = 0)
    (hadd : ∀ t s, column (t.add s) = column t + (f s).toUInt64) (hlen : rows.length ≤ ringSize) :
    (column (ofRows rows)).toNat = (rows.map fun s => (f s).toNat).sum := by
  rw [ofRows, toNat_foldl_add hadd, hzero, UInt64.toNat_zero, Nat.zero_add,
    Nat.mod_eq_of_lt (sum_counts_lt f hlen)]

theorem toInt_ofRows {column : Totals → Int64} {f : Summary → Int64} (hzero : column zero = 0)
    (hadd : ∀ t s, column (t.add s) = column t + f s)
    (hfit : FitsInt64 (rows.map fun s => (f s).toInt).sum) :
    (column (ofRows rows)).toInt = (rows.map fun s => (f s).toInt).sum := by
  obtain ⟨hle, hlt⟩ := hfit
  rw [ofRows, toInt_foldl_add hadd, hzero, Int64.toInt_zero, Int.zero_add]
  exact Int.bmod_eq_of_le (by omega) (by omega)

/-- **The totals are the exact sums of the columns.** -/
theorem sumUp_ofRows (hlen : rows.length ≤ ringSize) (hfit : Fit rows) :
    (ofRows rows).SumUp rows where
  sent := toNat_ofRows rfl (fun _ _ => rfl) hlen
  received := toNat_ofRows rfl (fun _ _ => rfl) hlen
  relayed := toNat_ofRows rfl (fun _ _ => rfl) hlen
  sentSum := toInt_ofRows rfl (fun _ _ => rfl) hfit.1
  receivedSum := toInt_ofRows rfl (fun _ _ => rfl) hfit.2

end Totals

namespace Collector

/-- What is asked of a collector. -/
inductive Call where
  | add (s : Summary)
  | clear
  | take
  deriving DecidableEq, Repr

/-- The summary that a call adds. -/
def Call.summary? : Call → Option Summary
  | .add s => some s
  | _ => none

/-- The collector after a call. -/
def call (c : Collector) : Call → Collector
  | .add s => c.add s
  | .clear => empty
  | .take => c.take.2

/-- A new collector after calls, oldest first. -/
def run (calls : List Call) : Collector := calls.foldl call empty

/-- The summaries added since the collector last started over. -/
def heard (calls : List Call) : List Summary :=
  (calls.rtakeWhile fun x => x.summary?.isSome).filterMap Call.summary?

/-- `ss'` are the summaries `ss` in another order, but those of one node keep theirs. -/
def Reorders (ss' ss : List Summary) : Prop :=
  ∀ id : NodeId, ss'.filter (·.id = id) = ss.filter (·.id = id)

variable {calls : List Call} {ss ss' : List Summary}

/-! ### One more call -/

theorem run_concat (calls : List Call) (x : Call) : run (calls ++ [x]) = (run calls).call x := by
  rw [run, List.foldl_append]
  rfl

theorem heard_concat_add (calls : List Call) (s : Summary) :
    heard (calls ++ [.add s]) = heard calls ++ [s] := by
  unfold heard
  rw [List.rtakeWhile_concat_pos _ _ _ rfl, List.filterMap_append]
  rfl

theorem heard_concat_of_none {x : Call} (hx : x.summary? = none) : heard (calls ++ [x]) = [] := by
  unfold heard
  rw [List.rtakeWhile_concat_neg _ _ _ (by simp [hx]), List.filterMap_nil]

/-- **What a collector holds is what was heard since it started over.** -/
theorem run_eq_collect (calls : List Call) : run calls = collect (heard calls) := by
  induction calls using List.reverseRecOn with
  | nil => rfl
  | append_singleton calls x ih =>
    rw [run_concat, ih]
    cases x with
    | add s => rw [heard_concat_add, collect_concat, call]
    | clear => rw [heard_concat_of_none rfl]; rfl
    | take => rw [heard_concat_of_none rfl]; rfl

theorem heard_append_adds (calls : List Call) (ss : List Summary) :
    heard (calls ++ ss.map .add) = heard calls ++ ss := by
  induction ss using List.reverseRecOn with
  | nil => simp
  | append_singleton ss s ih =>
    rw [List.map_append, ← List.append_assoc, List.map_singleton, heard_concat_add, ih,
      List.append_assoc]

/-! ### The rows -/

theorem mem_ids_collect {id : NodeId} :
    id ∈ (collect ss).summaries.map Summary.id ↔ id ∈ ss.map Summary.id := by
  constructor
  · intro h
    obtain ⟨s, hs, rfl⟩ := List.mem_map.mp h
    obtain ⟨before, after, rfl, -⟩ := (mem_collect_iff ss).mp hs
    simp
  · intro h
    obtain ⟨s, hs, rfl⟩ := exists_lastWord h
    exact List.mem_map_of_mem ((mem_collect_iff ss).mpr hs)

/-- A node that is heard again is not counted again. -/
theorem size_collect_eq_card (ss : List Summary) :
    (collect ss).size = (ss.map Summary.id).toFinset.card := by
  have hids : (ss.map Summary.id).toFinset = ((collect ss).summaries.map Summary.id).toFinset := by
    ext id
    rw [List.mem_toFinset, List.mem_toFinset, mem_ids_collect]
  rw [hids, List.toFinset_card_of_nodup (nodup_ids_collect ss), List.length_map]
  rfl

theorem length_collect_le (ss : List Summary) : (collect ss).summaries.length ≤ ringSize := by
  have h := (nodup_ids_collect ss).length_le_card
  rwa [List.length_map, Fintype.card_fin] at h

/-! ### Order -/

theorem Reorders.lastWord_iff (h : Reorders ss' ss) (earlier : List Summary) (s : Summary) :
    LastWord (earlier ++ ss') s ↔ LastWord (earlier ++ ss) s := by
  rw [lastWord_iff_getLast?, lastWord_iff_getLast?, List.filter_append, List.filter_append, h s.id]

/-- Two summaries of different nodes may change places. -/
theorem reorders_swap {s t : Summary} (h : s.id ≠ t.id) (before after : List Summary) :
    Reorders (before ++ t :: s :: after) (before ++ s :: t :: after) := by
  intro id
  simp only [List.filter_append, List.filter_cons]
  by_cases hs : s.id = id
  · have ht : t.id ≠ id := fun ht => h (hs.trans ht.symm)
    simp [hs, ht]
  · simp [hs]

theorem run_append_adds_of_reorders (h : Reorders ss' ss) (calls later : List Call) :
    run (calls ++ ss'.map .add ++ later) = run (calls ++ ss.map .add ++ later) := by
  have hsame : run (calls ++ ss'.map .add) = run (calls ++ ss.map .add) := by
    rw [run_eq_collect, run_eq_collect, heard_append_adds, heard_append_adds]
    exact collect_eq_of_lastWord (h.lastWord_iff (heard calls))
  unfold run at hsame ⊢
  rw [List.foldl_append, hsame, ← List.foldl_append]

/-- **A report has the last word of every node.**  After any calls a collector counts the nodes that
it has heard of since it last started over, each once.  A report taken then has their rows in the
order of identifiers: one for each of them, which is the last summary that was added in its name.
Its totals are the sums of its columns, if the sums of payloads fit, and the collector starts over.
Summaries of different nodes may be added in any order without a later report being another. -/
theorem reports_last_words (calls : List Call) :
    (run calls).size = ((heard calls).map Summary.id).toFinset.card ∧
    (run calls).take.1.rows.Pairwise (fun s t => s.id < t.id) ∧
    (∀ id, id ∈ (run calls).take.1.rows.map Summary.id ↔ id ∈ (heard calls).map Summary.id) ∧
    (∀ s, s ∈ (run calls).take.1.rows ↔ LastWord (heard calls) s) ∧
    (Totals.Fit (run calls).take.1.rows →
      (run calls).take.1.totals.SumUp (run calls).take.1.rows) ∧
    run (calls ++ [.take]) = empty ∧
    ∀ ss ss' later, Reorders ss' ss →
      (run (calls ++ ss'.map .add ++ later)).take = (run (calls ++ ss.map .add ++ later)).take := by
  have hrows : (run calls).take.1.rows = (collect (heard calls)).summaries := by
    rw [run_eq_collect]
    rfl
  refine ⟨?_, ?_, ?_, ?_, ?_, ?_, ?_⟩
  · rw [run_eq_collect, size_collect_eq_card]
  · rw [hrows]
    exact ascending_collect _
  · intro id
    rw [hrows]
    exact mem_ids_collect
  · intro s
    rw [hrows]
    exact mem_collect_iff _
  · have hlen := length_collect_le (heard calls)
    rw [← hrows] at hlen
    exact Totals.sumUp_ofRows hlen
  · rw [run_eq_collect, heard_concat_of_none rfl]
    rfl
  · intro ss ss' later h
    rw [run_append_adds_of_reorders h]

/-- A node's account of `n` packets sent. -/
def accountOf (id : NodeId) (n : UInt32) : Summary := ⟨id, n, 0, -7, 0, 11⟩

/-- A report is taken; then two nodes are heard, the second of them twice. -/
def heardAgain : List Call :=
  [.add (accountOf 40 1), .take, .add (accountOf 90 5), .add (accountOf 3 2), .add (accountOf 90 6)]

/-- The first account of the node that is heard twice is in no row and in no total, and had the other
node been heard first, the report would be the same. -/
theorem reports_last_words_again :
    (run heardAgain).take.1.rows = [accountOf 3 2, accountOf 90 6] ∧
    Totals.Fit (run heardAgain).take.1.rows ∧
    (run heardAgain).take.1.totals.SumUp (run heardAgain).take.1.rows ∧
    Reorders [accountOf 3 2, accountOf 90 5] [accountOf 90 5, accountOf 3 2] ∧
    (run ([.take] ++ [accountOf 3 2, accountOf 90 5].map .add ++ [.add (accountOf 90 6)])).take =
      (run ([.take] ++ [accountOf 90 5, accountOf 3 2].map .add ++
        [.add (accountOf 90 6)])).take := by
  have hfit : Totals.Fit (run heardAgain).take.1.rows :=
    ⟨⟨by decide, by decide⟩, ⟨by decide, by decide⟩⟩
  have hswap : Reorders [accountOf 3 2, accountOf 90 5] [accountOf 90 5, accountOf 3 2] :=
    reorders_swap (by decide) [] []
  obtain ⟨-, -, -, -, hsums, -, -⟩ := reports_last_words heardAgain
  obtain ⟨-, -, -, -, -, -, hsame⟩ := reports_last_words [.take]
  exact ⟨by decide, hfit, hsums hfit, hswap, hsame _ _ [.add (accountOf 90 6)] hswap⟩

end Collector

end RingOverlay
