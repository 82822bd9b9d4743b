import RingOverlay.Fleet.Run
import RingOverlay.Proofs.Node.Account
import RingOverlay.Proofs.Registry.Mail

/-!
# Fleet — what its lanes carry

`carried lane ps` are the messages that the parcels `ps` carry along a lane, oldest first; those in
flight to and from node `k` are `down f k` and `up f k`.

* `carried_takeFrom`: taking the oldest parcel of a lane takes the oldest message off that lane, and
  off no other.
* `carried_mail`: what the registry puts in flight to a node is what it has queued for it.
* `carried_told`: what a node puts in flight to the registry is its own, and brings all it reports.
-/

namespace RingOverlay

/-- The message that a parcel carries. -/
def Parcel.message? : Parcel → Option Message
  | toRegistry _ m | toNode _ m | toPeer _ _ m => some m
  | hangUp _ => none

/-- The message that a parcel carries along a lane. -/
def Parcel.on? (lane : Lane) (p : Parcel) : Option Message :=
  if p.lane = lane then p.message? else none

namespace Fleet

/-- The messages that parcels carry along a lane. -/
def carried (lane : Lane) (ps : List Parcel) : List Message := ps.filterMap (Parcel.on? lane)

/-- The messages in flight from node `k` to the registry. -/
def up (f : Fleet) (k : Nat) : List Message := carried (.up k) f.inFlight

/-- The messages in flight from the registry to node `k`. -/
def down (f : Fleet) (k : Nat) : List Message := carried (.down k) f.inFlight

variable {f : Fleet} {lane : Lane} {p : Parcel} {ps : List Parcel} {k : Nat}

theorem on?_of_ne (h : p.lane ≠ lane) : p.on? lane = none := if_neg h

theorem on?_self (p : Parcel) : p.on? p.lane = p.message? := if_pos rfl

theorem on?_toRegistry (k j : Nat) (m : Message) :
    (Parcel.toRegistry k m).on? (.up j) = if k = j then some m else none := by
  by_cases hj : k = j
  · rw [if_pos hj]
    exact if_pos (congrArg Lane.up hj)
  · rw [if_neg hj]
    exact if_neg fun heq => hj (Lane.up.inj heq)

theorem carried_append (lane : Lane) (ps qs : List Parcel) :
    carried lane (ps ++ qs) = carried lane ps ++ carried lane qs :=
  List.filterMap_append

theorem carried_cons (lane : Lane) (p : Parcel) (ps : List Parcel) :
    carried lane (p :: ps) = (p.on? lane).toList ++ carried lane ps := by
  cases h : p.on? lane with
  | none => exact List.filterMap_cons_none h
  | some m => exact List.filterMap_cons_some h

/-- **A lane is first in, first out.** -/
theorem carried_takeFrom {rest : List Parcel} (h : takeFrom lane ps = some (p, rest)) :
    p.lane = lane ∧ p ∈ ps ∧ rest ⊆ ps ∧
      ∀ other, carried other ps = (p.on? other).toList ++ carried other rest := by
  induction ps generalizing rest with
  | nil => cases h
  | cons q ps ih =>
    rw [takeFrom] at h
    split at h
    · next hlane =>
      cases h
      exact ⟨hlane, .head _, List.subset_cons_self _ _, fun other => carried_cons other _ _⟩
    · next hlane =>
      obtain ⟨⟨p', rest'⟩, htake, hpair⟩ := Option.map_eq_some_iff.mp h
      cases hpair
      obtain ⟨hp, hmem, hsub, hcarried⟩ := ih htake
      refine ⟨hp, .tail _ hmem, List.cons_subset_cons _ hsub, fun other => ?_⟩
      rw [carried_cons, carried_cons, hcarried]
      -- the older parcel is on another lane, so it comes before only where the taken one is not
      by_cases hother : lane = other
      · obtain rfl := hother
        rw [on?_of_ne hlane]
        rfl
      · rw [on?_of_ne (hp.trans_ne hother)]
        rfl

/-! ### What the registry puts in flight -/

theorem mail_eq (r : Registry) (k : LinkId) :
    r.mail k = r.effects.reverse.filterMap (RegistryEffect.on? k) := by
  unfold Registry.mail Registry.outbox
  rw [← List.filter_reverse, List.filterMap_filter]
  refine List.filterMap_congr fun e _ => ?_
  cases e <;> rfl

theorem reports_eq (r : Registry) : r.reports = r.effects.filterMap reportOf? := by
  unfold Registry.reports Registry.outbox
  rw [List.filterMap_filter]
  refine List.filterMap_congr fun e _ => ?_
  cases e <;> rfl

theorem carried_mail (r : Registry) (k : Nat) :
    carried (.down k) (r.effects.reverse.filterMap parcelOfRegistry?) = r.mail k := by
  rw [carried, List.filterMap_filterMap, mail_eq]
  refine List.filterMap_congr fun e _ => ?_
  cases e with
  | sent link m =>
    change (Parcel.toNode link m).on? (.down k) = if link = k then some m else none
    by_cases hk : link = k
    · subst hk
      rw [if_pos rfl]
      exact if_pos rfl
    · rw [if_neg hk]
      exact if_neg fun h => hk (Lane.down.inj h)
  | logged _ | printed _ | published _ => rfl

/-- The registry sends on no other lanes. -/
theorem lane_of_mail {r : Registry} (h : p ∈ r.effects.reverse.filterMap parcelOfRegistry?) :
    ∃ link m, p = .toNode link m ∧ .sent link m ∈ r.effects := by
  obtain ⟨e, he, hparcel⟩ := List.mem_filterMap.mp h
  cases e with
  | sent link m =>
    cases hparcel
    exact ⟨link, m, rfl, List.mem_reverse.mp he⟩
  | logged _ | printed _ | published _ => cases hparcel

theorem carried_mail_up (r : Registry) (k : Nat) :
    carried (.up k) (r.effects.reverse.filterMap parcelOfRegistry?) = [] := by
  refine List.filterMap_eq_nil_iff.mpr fun p hp => ?_
  obtain ⟨link, m, rfl, -⟩ := lane_of_mail hp
  exact if_neg fun h => by cases h

/-! ### What a node puts in flight -/

theorem parcelOfNode?_eq_some {n : Node} {e : NodeEffect} (h : f.parcelOfNode? k n e = some p) :
    ∃ link m, e = .sent link m ∧
      (n.links.end? link = some (.dialed registryAddress) ∧ p = .toRegistry k m ∨
        n.links.end? link ≠ some (.dialed registryAddress) ∧ ∃ j, p = .toPeer k j m) := by
  cases e with
  | logged _ | printed _ => cases h
  | sent link m =>
    refine ⟨link, m, rfl, ?_⟩
    rw [parcelOfNode?] at h
    split at h
    · next a ha =>
      split at h
      · next hregistry =>
        cases h
        exact .inl ⟨hregistry ▸ ha, rfl⟩
      · next hpeer =>
        obtain ⟨j, -, rfl⟩ := Option.map_eq_some_iff.mp h
        refine .inr ⟨fun heq => hpeer ?_, j, rfl⟩
        exact Endpoint.dialed.inj (Option.some.inj (ha.symm.trans heq))
    · cases h

/-- What node `k` puts in flight to the registry is its own, and brings all it reports. -/
theorem carried_told {n n' : Node} {acc : Account} {reports : List (NodeId × Nat)} {holds : Bool}
    (h : n.Answers registryLink acc reports holds n')
    (hend : n'.links.end? registryLink = some (.dialed registryAddress)) (f : Fleet) (k : Nat) :
    ∃ ms, carried (.up k) (n'.effects.reverse.filterMap (f.parcelOfNode? k n')) = ms ∧
      (∀ m ∈ ms, m.isFrom n.address = true) ∧ ms.filterMap Message.reported? = reports := by
  refine ⟨_, rfl, fun m hm => ?_, ?_⟩
  · obtain ⟨p, hp, hon⟩ := List.mem_filterMap.mp hm
    obtain ⟨e, he, hparcel⟩ := List.mem_filterMap.mp hp
    obtain ⟨link, m', rfl, ⟨-, rfl⟩ | ⟨-, j, rfl⟩⟩ := parcelOfNode?_eq_some hparcel
    · obtain rfl : m' = m := Option.some.inj ((on?_self (.toRegistry k m')).symm.trans hon)
      exact h.said link m' (List.mem_reverse.mp he)
    · rw [on?_of_ne (fun h => by cases h)] at hon
      cases hon
  · rw [← h.reports, carried, List.filterMap_filterMap, List.filterMap_filterMap]
    refine List.filterMap_congr fun e he => ?_
    cases e with
    | logged _ | printed _ => rfl
    | sent link m =>
      change _ = m.reported?
      by_cases hlink : n'.links.end? link = some (.dialed registryAddress)
      · have hparcel : f.parcelOfNode? k n' (.sent link m) = some (.toRegistry k m) := by
          rw [parcelOfNode?, hlink]
          exact if_pos rfl
        rw [hparcel]
        exact congrArg (Option.bind · Message.reported?) (on?_self (.toRegistry k m))
      -- reports go out over the connection to the registry only
      · have hnone : m.reported? = none := by
          by_contra hreport
          exact hlink (h.reportLink link m (List.mem_reverse.mp he) hreport ▸ hend)
        rw [hnone]
        cases hparcel : f.parcelOfNode? k n' (.sent link m) with
        | none => rfl
        | some p =>
          obtain ⟨link', m', heq, ⟨hto, -⟩ | ⟨-, j, rfl⟩⟩ := parcelOfNode?_eq_some hparcel
          · cases heq
            exact absurd hto hlink
          · rfl

/-- A node sends nothing down, and nothing up in another's place. -/
theorem carried_told_other {n : Node} (f : Fleet) (k : Nat) (hup : lane ≠ .up k)
    (hdown : ∀ i j, lane ≠ .across i j) :
    carried lane (n.effects.reverse.filterMap (f.parcelOfNode? k n)) = [] := by
  refine List.filterMap_eq_nil_iff.mpr fun p hp => ?_
  obtain ⟨e, -, hparcel⟩ := List.mem_filterMap.mp hp
  obtain ⟨link, m, -, ⟨-, rfl⟩ | ⟨-, j, rfl⟩⟩ := parcelOfNode?_eq_some hparcel
  · exact on?_of_ne hup.symm
  · exact on?_of_ne (hdown k j).symm

end Fleet

end RingOverlay
