import Mathlib.Data.List.Nodup
import RingOverlay.Link.Cache
import RingOverlay.Link.Links

/-!
# Link — what a cache holds

A cache is read through `get?`: what is put is there, what is erased is not, and no other address is
touched.  Its `keys` are the addresses that it has a connection under.  A connection that has closed
stays closed, and connections keep their far ends.
-/

namespace RingOverlay

namespace Cache

variable {α : Type} (c : Cache α) (a : PeerAddress)

/-- The addresses that there is a connection under. -/
def keys : List PeerAddress := c.slots.map Prod.fst

theorem get?_isSome_iff : (c.get? a).isSome ↔ a ∈ c.keys := by
  unfold get? keys
  rw [Option.isSome_map, List.find?_isSome, List.mem_map]
  exact exists_congr fun x => and_congr_right fun _ => beq_iff_eq

theorem mem_keys_of_get? {c : Cache α} {a : PeerAddress} {x : α} (h : c.get? a = some x) :
    a ∈ c.keys :=
  (get?_isSome_iff c a).mp (by rw [h]; rfl)

theorem get?_eq_none (h : a ∉ c.keys) : c.get? a = none :=
  Option.not_isSome_iff_eq_none.mp fun hs => h ((get?_isSome_iff c a).mp hs)

/-! ### Erasing and putting -/

theorem keys_erase : (c.erase a).keys = c.keys.filter (· != a) := by
  unfold erase keys
  rw [List.filter_map]
  rfl

theorem get?_erase_self : (c.erase a).get? a = none := by
  refine get?_eq_none _ _ ?_
  rw [keys_erase, List.mem_filter]
  exact fun h => (bne_iff_ne.mp h.2) rfl

theorem get?_erase_of_ne {b : PeerAddress} (h : b ≠ a) : (c.erase a).get? b = c.get? b := by
  unfold erase get?
  rw [List.find?_filter]
  congr 2
  funext x
  by_cases hx : x.1 = b
  · simp [hx, h]
  · simp [hx]

theorem get?_of_erase {a b : PeerAddress} {c : Cache α} {x : α}
    (h : (c.erase a).get? b = some x) : b ≠ a ∧ c.get? b = some x := by
  by_cases hba : b = a
  · obtain rfl := hba
    rw [get?_erase_self] at h
    cases h
  · rw [get?_erase_of_ne _ _ hba] at h
    exact ⟨hba, h⟩

theorem erase_eq_self (h : a ∉ c.keys) : c.erase a = c := by
  unfold erase
  congr 1
  refine List.filter_eq_self.mpr fun x hx => bne_iff_ne.mpr ?_
  rintro rfl
  exact h (List.mem_map_of_mem hx)

theorem keys_put (x : α) : (c.put a x).keys = c.keys.filter (· != a) ++ [a] := by
  rw [← keys_erase]
  unfold put keys
  rw [List.map_append]
  rfl

theorem get?_put_self (x : α) : (c.put a x).get? a = some x := by
  have hnone : ((c.erase a).slots.find? fun s => s.1 == a) = none :=
    Option.map_eq_none_iff.mp (get?_erase_self c a)
  unfold put get?
  rw [List.find?_append, hnone]
  simp

theorem get?_put_of_ne {b : PeerAddress} (x : α) (h : b ≠ a) : (c.put a x).get? b = c.get? b := by
  rw [← get?_erase_of_ne c a h]
  have hlast : [(a, x)].find? (fun s => s.1 == b) = none := by simp [h.symm]
  unfold put get?
  rw [List.find?_append, hlast, Option.or_none]

end Cache

namespace Links

variable {α : Type} {l : Links α} {link : LinkId}

theorem end?_isSome_iff : (l.end? link).isSome ↔ link < l.ends.length := by
  simp [end?]

/-- A connection is open if it was made and has not closed. -/
theorem isOpen_iff : l.isOpen link = true ↔ link < l.ends.length ∧ link ∉ l.closed := by
  simp [isOpen]

theorem end?_connect_of_some {far x : α} (h : l.end? link = some x) :
    (l.connect far).end? link = some x := by
  have hlt := (List.getElem?_eq_some_iff.mp h).1
  exact (List.getElem?_append_left hlt).trans h

/-- A connection that is made opens no other. -/
theorem isOpen_connect_of_ne {far : α} (h : link ≠ l.ends.length) :
    (l.connect far).isOpen link = l.isOpen link := by
  have hlength : (l.connect far).ends.length = l.ends.length + 1 := List.length_append
  have hlt : link < (l.connect far).ends.length ↔ link < l.ends.length := by
    rw [hlength, Nat.lt_succ_iff_lt_or_eq]
    exact or_iff_left h
  rw [isOpen, isOpen, decide_eq_decide.mpr hlt]
  rfl

@[simp] theorem ends_close (other : LinkId) : (l.close other).ends = l.ends := by
  unfold close
  split <;> rfl

@[simp] theorem isOpen_close_self (l : Links α) (link : LinkId) :
    (l.close link).isOpen link = false := by
  refine Bool.eq_false_iff.mpr fun h => (isOpen_iff.mp h).2 ?_
  unfold close at h ⊢
  split
  · exact List.mem_append_right _ (List.mem_singleton_self _)
  · next hclosed =>
    rw [if_neg hclosed] at h
    exact absurd h hclosed

/-- A connection that closes closes no other. -/
theorem isOpen_close_of_ne {other : LinkId} (h : link ≠ other) :
    (l.close other).isOpen link = l.isOpen link := by
  unfold close
  split
  · simp [isOpen, h]
  · rfl

/-- A connection that is open after another has closed was open before. -/
theorem isOpen_of_close {other : LinkId} (h : (l.close other).isOpen link = true) :
    l.isOpen link = true := by
  obtain ⟨hlt, hclosed⟩ := isOpen_iff.mp h
  refine isOpen_iff.mpr ⟨ends_close (l := l) other ▸ hlt, fun hmem => hclosed ?_⟩
  unfold close
  split
  · exact List.mem_append_left _ hmem
  · exact hmem

@[simp] theorem end?_close (other : LinkId) : (l.close other).end? link = l.end? link := by
  rw [end?, ends_close, end?]

end Links

end RingOverlay
