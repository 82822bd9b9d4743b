import RingOverlay.Proofs.Link.Cache
import RingOverlay.Proofs.Node.Seen
import RingOverlay.Proofs.Node.Setup

/-!
# Node — dialing the fingers

Several fingers may be at one address, which is dialed once (`nodup_fingerAddresses`).  Dialing a
list of addresses makes one connection for each address that can be reached, in order, and logs a
refusal for each that cannot (`links_dialEach`, `refused_dialEach`).  The connections that are made
are cached under the addresses they lead to, and under no other address is anything cached anew
(`get?_dialEach_of_mem`, `get?_dialEach_of_not_mem`).
-/

namespace RingOverlay

/-- The address of a finger that is logged as out of reach, and what the dial said. -/
def NodeEffect.refused? : NodeEffect → Option (PeerAddress × String)
  | .logged (.fingerUnreached a error) => some (a, error)
  | _ => none

namespace Node

open NodeEffect

/-! ### The addresses of fingers -/

/-- Addresses that are added one by one, unless they are there already. -/
theorem foldl_new (bs : List PeerAddress) {as : List PeerAddress} (h : as.Nodup) :
    (bs.foldl (fun as a => if a ∈ as then as else as ++ [a]) as).Nodup ∧
    ∀ a, a ∈ bs.foldl (fun as a => if a ∈ as then as else as ++ [a]) as ↔ a ∈ as ∨ a ∈ bs := by
  induction bs generalizing as with
  | nil => exact ⟨h, fun a => by simp⟩
  | cons b bs ih =>
    rw [List.foldl_cons]
    split
    · next hb =>
      obtain ⟨hnodup, hmem⟩ := ih h
      refine ⟨hnodup, fun a => (hmem a).trans ?_⟩
      rw [List.mem_cons]
      constructor
      · rintro (ha | ha)
        · exact .inl ha
        · exact .inr (.inr ha)
      · rintro (ha | rfl | ha)
        · exact .inl ha
        · exact .inl hb
        · exact .inr ha
    · next hb =>
      have hconcat : (as ++ [b]).Nodup := by
        rw [← List.concat_eq_append]
        exact h.concat hb
      obtain ⟨hnodup, hmem⟩ := ih hconcat
      refine ⟨hnodup, fun a => (hmem a).trans ?_⟩
      rw [List.mem_append, List.mem_singleton, List.mem_cons, or_assoc]

theorem nodup_fingerAddresses (table : FingerTable) : (fingerAddresses table).Nodup :=
  (foldl_new _ .nil).1

theorem mem_fingerAddresses {table : FingerTable} {a : PeerAddress} :
    a ∈ fingerAddresses table ↔ a ∈ table.entries.map Entry.address := by
  rw [fingerAddresses, (foldl_new _ .nil).2]
  exact or_iff_right List.not_mem_nil

theorem mem_missing {n : Node} {table : FingerTable} {a : PeerAddress} :
    a ∈ n.missing table ↔ a ∈ table.entries.map Entry.address ∧ n.live? a = none := by
  rw [missing, List.mem_filter, mem_fingerAddresses, Option.isNone_iff_eq_none]

/-! ### Dialing -/

variable {reaches : PeerAddress → Bool} {a : PeerAddress}

theorem dialEach_of_reached (h : reaches a = true) (as : List PeerAddress) (n : Node) :
    dialEach reaches (a :: as) n = dialEach reaches as (n.dial a) :=
  if_pos h

theorem dialEach_of_refused (h : reaches a = false) (as : List PeerAddress) (n : Node) :
    dialEach reaches (a :: as) n =
      ((dialEach reaches as (n.log (.fingerUnreached a (refusedDial a)))).1,
        refusedDial a :: (dialEach reaches as (n.log (.fingerUnreached a (refusedDial a)))).2) :=
  if_neg (Bool.eq_false_iff.mp h)

theorem filter_reached (h : reaches a = true) (as : List PeerAddress) :
    (a :: as).filter reaches = a :: as.filter reaches ∧
      ((a :: as).filter fun a => !reaches a) = as.filter fun a => !reaches a :=
  ⟨List.filter_cons_of_pos h, List.filter_cons_of_neg (by rw [h]; exact Bool.false_ne_true)⟩

theorem filter_refused (h : reaches a = false) (as : List PeerAddress) :
    (a :: as).filter reaches = as.filter reaches ∧
      ((a :: as).filter fun a => !reaches a) = a :: as.filter fun a => !reaches a :=
  ⟨List.filter_cons_of_neg (Bool.eq_false_iff.mp h), List.filter_cons_of_pos (by rw [h]; rfl)⟩

variable (reaches)

/-- Dialing touches the connections of a node, their cache, and what it has done. -/
theorem kept_dialEach (as : List PeerAddress) (n : Node) :
    (dialEach reaches as n).1 =
      { n with
        cache := (dialEach reaches as n).1.cache
        links := (dialEach reaches as n).1.links
        effects := (dialEach reaches as n).1.effects } := by
  induction as generalizing n with
  | nil => rfl
  | cons a as ih =>
    cases h : reaches a with
    | true =>
      rw [dialEach_of_reached h]
      exact ih (n.dial a)
    | false =>
      rw [dialEach_of_refused h]
      exact ih (n.log (.fingerUnreached a (refusedDial a)))

theorem config_dialEach (as : List PeerAddress) (n : Node) :
    (dialEach reaches as n).1.config = n.config := by
  rw [kept_dialEach]

theorem topology_dialEach (as : List PeerAddress) (n : Node) :
    (dialEach reaches as n).1.topology = n.topology := by
  rw [kept_dialEach]

/-- A connection is made to each address that can be reached. -/
theorem links_dialEach (as : List PeerAddress) (n : Node) :
    (dialEach reaches as n).1.links =
      { n.links with ends := n.links.ends ++ (as.filter reaches).map .dialed } := by
  induction as generalizing n with
  | nil => simp [dialEach]
  | cons a as ih =>
    cases h : reaches a with
    | true =>
      rw [dialEach_of_reached h, ih, (filter_reached h as).1, List.map_cons, List.append_cons]
      rfl
    | false =>
      rw [dialEach_of_refused h, (filter_refused h as).1]
      exact ih (n.log (.fingerUnreached a (refusedDial a)))

theorem failures_dialEach (as : List PeerAddress) (n : Node) :
    (dialEach reaches as n).2 = (as.filter fun a => !reaches a).map refusedDial := by
  induction as generalizing n with
  | nil => rfl
  | cons a as ih =>
    cases h : reaches a with
    | true => rw [dialEach_of_reached h, ih, (filter_reached h as).2]
    | false => rw [dialEach_of_refused h, ih, (filter_refused h as).2, List.map_cons]

/-- The addresses that could not be reached are none if all are reached. -/
theorem isEmpty_refused (reaches : PeerAddress → Bool) (as : List PeerAddress) :
    ((as.filter fun a => !reaches a).map refusedDial).isEmpty = as.all reaches := by
  rw [Bool.eq_iff_iff, List.isEmpty_iff, List.map_eq_nil_iff, List.filter_eq_nil_iff,
    List.all_eq_true]
  simp

/-- The outcome of a setup, by whether it is established. -/
theorem outcome_dialEach (s : Setup) (n : Node) :
    ((setupOutcome s.id s.fingers (dialEach reaches s.dials n).2).1 != failureStatus) =
      s.established reaches ∧
    (setupOutcome s.id s.fingers (dialEach reaches s.dials n).2).1 =
      setupStatus s.id (s.established reaches) := by
  rw [failures_dialEach, Setup.established, ← isEmpty_refused]
  exact setupOutcome_fst s.id s.fingers _

/-- A refusal is logged for each address that cannot be reached. -/
theorem refused_dialEach (as : List PeerAddress) (n : Node) :
    Shows refused? n (dialEach reaches as n).1
      ((as.filter fun a => !reaches a).map fun a => (a, refusedDial a)) := by
  induction as generalizing n with
  | nil => exact .refl n
  | cons a as ih =>
    cases h : reaches a with
    | true =>
      have hdial : Shows refused? n (n.dial a) [] := .of_same rfl
      rw [dialEach_of_reached h, (filter_reached h as).2]
      exact hdial.unseen (ih (n.dial a))
    | false =>
      have hlog := Shows.emit (f := refused?) n (.logged (.fingerUnreached a (refusedDial a)))
      rw [dialEach_of_refused h, (filter_refused h as).2, List.map_cons]
      exact hlog.trans (ih (n.log (.fingerUnreached a (refusedDial a))))

theorem sent_dialEach (as : List PeerAddress) (n : Node) :
    Shows sent? n (dialEach reaches as n).1 [] :=
  dialEach_induction (R := fun n n' => Shows sent? n n' []) .refl Shows.unseen
    (fun _ _ => .of_same rfl) (fun n _ => .emit_unseen n rfl) reaches as n

/-! ### What is cached -/

variable {reaches} {as : List PeerAddress} {b : PeerAddress}

/-- Under an address that is not dialed, or not with success, is cached what was there before. -/
theorem get?_dialEach_of_not_mem (h : b ∉ as.filter reaches) (n : Node) :
    (dialEach reaches as n).1.cache.get? b = n.cache.get? b := by
  induction as generalizing n with
  | nil => rfl
  | cons a as ih =>
    cases ha : reaches a with
    | true =>
      rw [(filter_reached ha as).1] at h
      obtain ⟨hne, htail⟩ := List.ne_and_not_mem_of_not_mem_cons h
      rw [dialEach_of_reached ha, ih htail]
      exact Cache.get?_put_of_ne _ _ _ hne
    | false =>
      rw [(filter_refused ha as).1] at h
      rw [dialEach_of_refused ha]
      exact ih h (n.log (.fingerUnreached a (refusedDial a)))

/-- Under an address that is dialed with success is cached a connection to it that is new. -/
theorem get?_dialEach_of_mem (h : b ∈ as.filter reaches) (n : Node) :
    ∃ link, n.links.ends.length ≤ link ∧
      (dialEach reaches as n).1.cache.get? b = some link ∧
      (dialEach reaches as n).1.links.end? link = some (.dialed b) := by
  induction as generalizing n with
  | nil => exact absurd h List.not_mem_nil
  | cons a as ih =>
    cases ha : reaches a with
    | false =>
      rw [(filter_refused ha as).1] at h
      rw [dialEach_of_refused ha]
      exact ih h (n.log (.fingerUnreached a (refusedDial a)))
    | true =>
      rw [(filter_reached ha as).1] at h
      rw [dialEach_of_reached ha]
      by_cases htail : b ∈ as.filter reaches
      · obtain ⟨link, hle, hcached, hend⟩ := ih htail (n.dial a)
        have hgrown : n.links.ends.length ≤ (n.dial a).links.ends.length :=
          (List.prefix_append n.links.ends [.dialed a]).length_le
        exact ⟨link, Nat.le_trans hgrown hle, hcached, hend⟩
      -- no later dial leads to the address, so the connection that is made now stays
      · obtain rfl : b = a := (List.mem_cons.mp h).resolve_right htail
        refine ⟨n.links.ends.length, Nat.le_refl _, ?_, ?_⟩
        · rw [get?_dialEach_of_not_mem htail]
          exact Cache.get?_put_self _ _ _
        · rw [Links.end?, links_dialEach]
          change ((n.links.ends ++ [.dialed b]) ++ _)[n.links.ends.length]? = _
          simp

end Node

end RingOverlay
