import Mathlib.Data.List.Nodup
import RingOverlay.Proofs.Finger.NextHop
import RingOverlay.Proofs.Finger.Tables

/-!
# Finger — the nearest finger

The forwarding rule compares identifiers as numbers and has three branches.  On the ring it is one
minimisation: `Nearest t dst e` says that `e` is a finger of `t` from which it is no further,
clockwise, to `dst` than from any other.  Fingers have distinct identifiers and no two places of the
ring are equally far from a third, so a table has at most one nearest finger (`Nearest.eq`); and
which branch chose it is told by how its identifier compares with the destination (`Hop.toward`).

* `nextHop_eq_some_iff`: the decision is the one toward the nearest finger.
* `nextHop_minimises`: **the rule is the minimisation**, with what each branch says, and whatever
  order the fingers come in.
-/

namespace RingOverlay

/-- The decision to hand a packet for `dst` to `finger`, by the rule that applies to it. -/
def Hop.toward (dst : NodeId) (finger : Entry) : Hop :=
  if finger.id = dst then .exact finger
  else if finger.id < dst then .preceding finger
  else .wraparound finger

namespace FingerTable

variable {t t' : FingerTable} {dst : NodeId} {e e' : Entry} {hop : Hop}

/-- From the finger `e` it is no further to `dst`, clockwise, than from any other finger. -/
structure Nearest (t : FingerTable) (dst : NodeId) (e : Entry) : Prop where
  mem : e ∈ t.entries
  le : ∀ x ∈ t.entries, clockwise ringSize e.id dst ≤ clockwise ringSize x.id dst

/-! ### Which rule applies -/

theorem toward_of_eq (h : e.id = dst) : Hop.toward dst e = .exact e := if_pos h

theorem toward_of_lt (h : e.id < dst) : Hop.toward dst e = .preceding e := by
  rw [Hop.toward, if_neg (Fin.ne_of_lt h), if_pos h]

theorem toward_of_gt (h : dst < e.id) : Hop.toward dst e = .wraparound e := by
  rw [Hop.toward, if_neg (Fin.ne_of_gt h), if_neg (Fin.lt_asymm h)]

theorem eq_toward (h : t.nextHop dst = some hop) : hop = .toward dst hop.entry := by
  rcases nextHop_cases h with ⟨e, -, rfl, heq⟩ | ⟨e, -, rfl, hlt, -⟩ | ⟨e, he, rfl, hall⟩
  · exact (toward_of_eq heq).symm
  · exact (toward_of_lt hlt).symm
  · exact (toward_of_gt (hall e he).1).symm

/-- The rule that was applied tells how the finger's identifier compares with the destination. -/
theorem branch_toward (dst : NodeId) (e : Entry) :
    ((∃ x, Hop.toward dst e = .exact x) ↔ e.id = dst) ∧
    ((∃ x, Hop.toward dst e = .preceding x) ↔ e.id < dst) ∧
    ((∃ x, Hop.toward dst e = .wraparound x) ↔ dst < e.id) := by
  rcases Nat.lt_trichotomy e.id dst with hlt | heq | hgt
  · rw [toward_of_lt hlt]
    simpa using ⟨Fin.ne_of_lt hlt, hlt, Fin.le_of_lt hlt⟩
  · obtain rfl := Fin.ext heq
    rw [toward_of_eq rfl]
    simp
  · rw [toward_of_gt hgt]
    simpa using ⟨Fin.ne_of_gt hgt, Fin.le_of_lt hgt, hgt⟩

/-! ### The nearest finger -/

/-- A finger is known by its identifier. -/
theorem eq_of_id (he : e ∈ t.entries) (he' : e' ∈ t.entries) (h : e.id = e'.id) : e = e' :=
  List.inj_on_of_nodup_map t.nodup_ids he he' h

/-- **A table has at most one nearest finger.** -/
theorem Nearest.eq (h : t.Nearest dst e) (h' : t.Nearest dst e') : e = e' := by
  have hdist : clockwise ringSize e.id dst = clockwise ringSize e'.id dst :=
    Nat.le_antisymm (h.le e' h'.mem) (h'.le e h.mem)
  exact eq_of_id h.mem h'.mem (Fin.ext (clockwise_left_inj e.id.isLt e'.id.isLt dst.isLt hdist))

theorem nearest_of_nextHop (h : t.nextHop dst = some hop) : t.Nearest dst hop.entry :=
  ⟨nextHop_mem h, fun _ hx => nextHop_closest h hx⟩

/-- The decision is the one toward the nearest finger. -/
theorem nextHop_eq_some_iff :
    t.nextHop dst = some hop ↔ t.Nearest dst hop.entry ∧ hop = .toward dst hop.entry := by
  constructor
  · intro h
    exact ⟨nearest_of_nextHop h, eq_toward h⟩
  · rintro ⟨hnear, heq⟩
    -- a table with a finger has a decision, and it is toward the only nearest finger
    have hsome : t.nextHop dst ≠ none := by
      intro hnone
      exact List.ne_nil_of_mem hnear.mem (nextHop_eq_none_iff.mp hnone)
    obtain ⟨hop', hhop'⟩ := Option.ne_none_iff_exists'.mp hsome
    have hentry : hop'.entry = hop.entry := (nearest_of_nextHop hhop').eq hnear
    rw [hhop', heq, eq_toward hhop', hentry]

/-- If the nearest finger lies past the destination, so do all. -/
theorem Nearest.past_iff (h : t.Nearest dst e) :
    dst < e.id ↔ ∀ x ∈ t.entries, dst < x.id := by
  constructor
  · intro hlt x hx
    by_contra hle
    have hxd : x.id.val ≤ dst.val := Nat.not_lt.mp hle
    have hdist := h.le x hx
    rw [clockwise_of_lt hlt e.id.isLt, clockwise_of_le hxd dst.isLt] at hdist
    have he := e.id.isLt
    omega
  · intro hall
    exact hall e h.mem

/-- The order of the fingers does not matter. -/
theorem nextHop_eq_of_perm (h : t'.entries.Perm t.entries) : t'.nextHop dst = t.nextHop dst := by
  have hnear : ∀ e, t'.Nearest dst e ↔ t.Nearest dst e := by
    intro e
    constructor
    · intro ⟨hmem, hle⟩
      exact ⟨h.mem_iff.mp hmem, fun x hx => hle x (h.mem_iff.mpr hx)⟩
    · intro ⟨hmem, hle⟩
      exact ⟨h.mem_iff.mpr hmem, fun x hx => hle x (h.mem_iff.mp hx)⟩
  refine Option.ext fun hop => ?_
  rw [nextHop_eq_some_iff, nextHop_eq_some_iff, hnear]

/-- **The rule is the minimisation.**  Only an empty table has no decision.  Otherwise the finger
chosen is the only one from which it is least far to the destination around the ring; it was chosen
as the destination itself, as one below it or around the ring as its identifier compares with the
destination, the last exactly if every finger lies past it.  The fingers can be put into any other
order, and the decision is the same. -/
theorem nextHop_minimises (t : FingerTable) (dst : NodeId) :
    (t.nextHop dst = none ↔ t.entries = []) ∧
    (∀ hop, t.nextHop dst = some hop →
      (∀ e, t.Nearest dst e ↔ e = hop.entry) ∧
      ((∃ e, hop = .exact e) ↔ hop.entry.id = dst) ∧
      ((∃ e, hop = .preceding e) ↔ hop.entry.id < dst) ∧
      ((∃ e, hop = .wraparound e) ↔ dst < hop.entry.id) ∧
      (dst < hop.entry.id ↔ ∀ e ∈ t.entries, dst < e.id)) ∧
    ∀ es, es.Perm t.entries → ∃ t', ofEntries es = .ok t' ∧ t'.nextHop dst = t.nextHop dst := by
  refine ⟨nextHop_eq_none_iff, fun hop h => ?_, fun es hperm => ?_⟩
  · have hnear := nearest_of_nextHop h
    obtain ⟨hexact, hpreceding, hwraparound⟩ := branch_toward dst hop.entry
    rw [← eq_toward h] at hexact hpreceding hwraparound
    refine ⟨fun e => ⟨fun he => he.eq hnear, ?_⟩, hexact, hpreceding, hwraparound, hnear.past_iff⟩
    rintro rfl
    exact hnear
  · have hnodup : (es.map Entry.id).Nodup := (hperm.map Entry.id).nodup_iff.mpr t.nodup_ids
    exact ⟨⟨es, hnodup⟩, ofEntries_of_nodup hnodup, nextHop_eq_of_perm hperm⟩

/-- Four fingers, not in the order of their identifiers. -/
def four : FingerTable where
  entries := [⟨90, ⟨"127.0.0.1", 6090⟩⟩, ⟨3, ⟨"127.0.0.1", 6003⟩⟩, ⟨40, ⟨"127.0.0.1", 6040⟩⟩,
    ⟨12, ⟨"127.0.0.1", 6012⟩⟩]
  nodup_ids := by decide

/-- All four lie past the destination 1: the way there is around the ring, by way of 90. -/
theorem nextHop_minimises_four :
    four.nextHop 1 = some (.wraparound ⟨90, ⟨"127.0.0.1", 6090⟩⟩) ∧
    (∀ e, four.Nearest 1 e ↔ e = ⟨90, ⟨"127.0.0.1", 6090⟩⟩) ∧ ∀ e ∈ four.entries, 1 < e.id := by
  have hhop : four.nextHop 1 = some (.wraparound ⟨90, ⟨"127.0.0.1", 6090⟩⟩) := by decide
  obtain ⟨hnearest, -, -, -, hpast⟩ := (nextHop_minimises four 1).2.1 _ hhop
  exact ⟨hhop, hnearest, hpast.mp (by decide)⟩

end FingerTable

end RingOverlay
