import RingOverlay.Proofs.Fleet.Lanes
import RingOverlay.Proofs.Registry.Deeds

/-!
# Fleet — what is to come of its nodes

The *prospect* of a node is what it comes to once everything in flight to it has arrived: its
account, what the registry has yet to hear of it, and whether it still holds its connection to the
registry.  That a node takes a message leaves its prospect as it is; what the registry sends is
taken at once.

`Proper f` says how a fleet is put together, and `homes f` where its nodes listen.

* `Proper.stirred`: **what a node says is in flight to the registry**, and touches nobody else.
* `Proper.acted`: **what the registry sends is taken at once.**
-/

namespace RingOverlay

/-- What is to come of a node. -/
structure Prospect where
  account : Account
  /-- What the registry has yet to hear of it, oldest first. -/
  pending : List (NodeId × Nat)
  /-- Whether it holds its connection to the registry. -/
  holds : Bool

namespace Prospect

/-- The prospect of a node that has just joined. -/
def fresh : Prospect := ⟨.zero, [], true⟩

/-- The prospect with one more message on its way; who has let go of the registry takes none. -/
def take (p : Prospect) (m : Message) : Prospect :=
  if p.holds then ⟨p.account.handle m, p.pending ++ (p.account.reports? m).toList, !m.dismisses⟩
  else p

/-- The prospect with more messages on their way. -/
def takes (p : Prospect) (ms : List Message) : Prospect := ms.foldl take p

/-- The prospect with something to be heard first. -/
def owing (p : Prospect) (reports : List (NodeId × Nat)) : Prospect :=
  { p with pending := reports ++ p.pending }

variable {p : Prospect}

@[simp] theorem takes_nil (p : Prospect) : p.takes [] = p := rfl

@[simp] theorem takes_cons (p : Prospect) (m : Message) (ms : List Message) :
    p.takes (m :: ms) = (p.take m).takes ms := rfl

theorem takes_append (p : Prospect) (ms ns : List Message) :
    p.takes (ms ++ ns) = (p.takes ms).takes ns :=
  List.foldl_append

theorem take_of_holds (h : p.holds = true) (m : Message) : p.take m =
    ⟨p.account.handle m, p.pending ++ (p.account.reports? m).toList, !m.dismisses⟩ := if_pos h

theorem take_of_not_holds (h : p.holds = false) (m : Message) : p.take m = p :=
  if_neg (Bool.eq_false_iff.mp h)

theorem takes_of_not_holds (h : p.holds = false) (ms : List Message) : p.takes ms = p := by
  induction ms with
  | nil => rfl
  | cons m ms ih => rw [takes_cons, take_of_not_holds h, ih]

theorem take_owing (p : Prospect) (reports : List (NodeId × Nat)) (m : Message) :
    (p.owing reports).take m = (p.take m).owing reports := by
  cases hholds : p.holds with
  | false => rw [take_of_not_holds hholds, take_of_not_holds (p := p.owing reports) hholds]
  | true =>
    rw [take_of_holds hholds, take_of_holds (p := p.owing reports) hholds]
    change Prospect.mk _ (_ ++ _ ++ _) _ = Prospect.mk _ (_ ++ (_ ++ _)) _
    rw [List.append_assoc]
    rfl

/-- What has been reported is heard before whatever comes. -/
theorem takes_owing (p : Prospect) (reports : List (NodeId × Nat)) (ms : List Message) :
    (p.owing reports).takes ms = (p.takes ms).owing reports := by
  induction ms generalizing p with
  | nil => rfl
  | cons m ms ih => rw [takes_cons, take_owing, ih, takes_cons]

/-- Nothing that is pending is taken back. -/
theorem pending_prefix_takes (p : Prospect) (ms : List Message) :
    p.pending <+: (p.takes ms).pending := by
  induction ms generalizing p with
  | nil => exact List.prefix_refl _
  | cons m ms ih =>
    refine .trans ?_ (ih (p.take m))
    cases hholds : p.holds with
    | false =>
      have hsame := congrArg pending (take_of_not_holds hholds m)
      exact hsame ▸ List.prefix_refl (p.take m).pending
    | true =>
      rw [take_of_holds hholds]
      exact List.prefix_append _ _

end Prospect

namespace Fleet

/-- The account of node `k`, and whether it holds its connection to the registry.  A node that is
still to join is as one that has just joined. -/
def standing (f : Fleet) (k : Nat) : Account × Bool :=
  match f.nodes[k]? with
  | some n => (n.account, n.links.isOpen registryLink)
  | none => (.zero, true)

/-- What node `k` is at present. -/
def present (f : Fleet) (k : Nat) : Prospect :=
  ⟨(f.standing k).1, (f.up k).filterMap Message.reported?, (f.standing k).2⟩

/-- What is to come of node `k`. -/
def prospect (f : Fleet) (k : Nat) : Prospect := (f.present k).takes (f.down k)

/-- Where the nodes of a fleet listen. -/
def homes (f : Fleet) : List PeerAddress := f.nodes.map Node.address

/-- A node, as a fleet has it between two actions. -/
structure Enrolled (n : Node) : Prop where
  silent : n.effects = []
  seated : n.Seated registryLink
  far : n.links.end? registryLink = some (.dialed registryAddress)

/-- How a fleet is put together: each node has a connection of its own to the registry, nothing is
in flight to or from nodes that are still to join, and nodes give each other no orders. -/
structure Proper (f : Fleet) : Prop where
  silent : f.registry.effects = []
  connected : f.registry.links.ends.length = f.nodes.length
  enrolled : ∀ (k : Nat) n, f.nodes[k]? = some n → Enrolled n
  across : ∀ i j m, .toPeer i j m ∈ f.inFlight → m.isOrder = false
  made : ∀ k, f.nodes.length ≤ k → f.up k = [] ∧ f.down k = []

variable {f g : Fleet} {k : Nat} {n n' : Node} {acc : Account} {reports : List (NodeId × Nat)}
  {holds : Bool}

theorem standing_of_some (h : f.nodes[k]? = some n) :
    f.standing k = (n.account, n.links.isOpen registryLink) := by
  rw [standing, h]

theorem present_of_some (h : f.nodes[k]? = some n) : f.present k =
    ⟨n.account, (f.up k).filterMap Message.reported?, n.links.isOpen registryLink⟩ := by
  rw [present, standing_of_some h]

theorem present_congr (hnodes : g.nodes[k]? = f.nodes[k]?) (hup : g.up k = f.up k) :
    g.present k = f.present k := by
  rw [present, present, standing, standing, hnodes, hup]

theorem prospect_congr (hpresent : g.present k = f.present k) (hdown : g.down k = f.down k) :
    g.prospect k = f.prospect k := by
  rw [prospect, prospect, hpresent, hdown]

theorem homes_of_some (h : f.nodes[k]? = some n) : f.homes[k]? = some n.address := by
  rw [homes, List.getElem?_map, h]
  rfl

theorem length_homes (f : Fleet) : f.homes.length = f.nodes.length := List.length_map _

theorem proper_opened (config : RegistryConfig) (draws : Draws) : Proper (opened config draws) where
  silent := rfl
  connected := rfl
  enrolled _ _ h := nomatch h
  across _ _ _ h := nomatch h
  made _ _ := ⟨rfl, rfl⟩

/-- Nothing is in flight that is not known to the registry. -/
theorem Proper.prospect_fresh (h : Proper f) : f.prospect f.nodes.length = .fresh := by
  obtain ⟨hup, hdown⟩ := h.made _ (Nat.le_refl _)
  rw [prospect, hdown, present, hup, standing, List.getElem?_eq_none (Nat.le_refl _)]
  rfl

/-! ### What nodes do -/

/-- From `f` to `g`, node `k` has said something and come to the account `acc`, with `reports` to be
heard. -/
structure Stirred (f : Fleet) (k : Nat) (acc : Account) (reports : List (NodeId × Nat))
    (holds : Bool) (g : Fleet) : Prop where
  proper : Proper g
  registry : g.registry = f.registry
  published : g.reports = f.reports
  homes : g.homes = f.homes
  up : ∀ j, ∃ ms, g.up j = f.up j ++ ms ∧
    ∀ m ∈ ms, ∃ a, f.homes[j]? = some a ∧ m.isFrom a = true
  down : ∀ j, g.down j = f.down j
  self : g.present k = ⟨acc, (f.present k).pending ++ reports, holds⟩
  others : ∀ j, j ≠ k → g.present j = f.present j

theorem carried_hangUp (lane : Lane) (k : Nat) (hungUp : Bool) :
    carried lane (if hungUp then [.hangUp k] else []) = [] := by
  refine List.filterMap_eq_nil_iff.mpr fun p hp => ?_
  split at hp
  · obtain rfl := List.mem_singleton.mp hp
    rw [Parcel.on?]
    split <;> rfl
  · cases hp

theorem carried_collectNode (f : Fleet) (k : Nat) (n : Node) (lane : Lane) :
    carried lane (f.collectNode k n).inFlight = carried lane f.inFlight ++
      carried lane (n.effects.reverse.filterMap (f.parcelOfNode? k n)) := by
  rw [collectNode]
  dsimp only
  rw [carried_append, carried_append, carried_hangUp, List.append_nil]

theorem nodes_collectNode_self (hn : f.nodes[k]? = some n) (n' : Node) :
    (f.collectNode k n').nodes[k]? = some { n' with effects := [] } :=
  List.getElem?_set_self (List.getElem?_eq_some_iff.mp hn).1

theorem nodes_collectNode_of_ne {j : Nat} (hj : j ≠ k) (n' : Node) :
    (f.collectNode k n').nodes[j]? = f.nodes[j]? :=
  List.getElem?_set_ne hj.symm

/-- A node goes on listening where it does. -/
theorem homes_set (hn : f.nodes[k]? = some n) (haddress : n'.address = n.address) :
    (f.nodes.set k n').map Node.address = f.homes := by
  obtain ⟨hk, hhome⟩ := List.getElem?_eq_some_iff.mp (homes_of_some hn)
  rw [List.map_set, haddress, ← hhome]
  exact List.set_getElem_self hk

theorem homes_collectNode (hn : f.nodes[k]? = some n) (haddress : n'.address = n.address) :
    (f.collectNode k n').homes = f.homes :=
  homes_set hn (show ({ n' with effects := [] } : Node).address = n.address from haddress)

theorem down_collectNode (f : Fleet) (k : Nat) (n' : Node) (j : Nat) :
    (f.collectNode k n').down j = f.down j := by
  have hnone : carried (.down j) (n'.effects.reverse.filterMap (f.parcelOfNode? k n')) = [] :=
    carried_told_other f k (fun heq => by cases heq) (fun _ _ heq => by cases heq)
  rw [down, carried_collectNode, hnone, List.append_nil, down]

theorem up_collectNode_of_ne {j : Nat} (hj : j ≠ k) (n' : Node) :
    (f.collectNode k n').up j = f.up j := by
  have hnone : carried (.up j) (n'.effects.reverse.filterMap (f.parcelOfNode? k n')) = [] :=
    carried_told_other f k (fun heq => hj (Lane.up.inj heq)) (fun _ _ heq => by cases heq)
  rw [up, carried_collectNode, hnone, List.append_nil, up]

/-- No answer makes a connection out to anybody but the registry. -/
theorem Enrolled.far_of_answers (h : Enrolled n)
    (ha : n.Answers registryLink acc reports holds n') :
    n'.links.end? registryLink = some (.dialed registryAddress) := by
  obtain ⟨ends, hends⟩ := ha.ends
  rw [Links.end?, ← hends, List.getElem?_append_left h.seated.made]
  exact h.far

/-- **What a node says keeps a fleet proper.** -/
theorem Proper.collectNode (h : Proper f) (hn : f.nodes[k]? = some n)
    (ha : n.Answers registryLink acc reports holds n') : Proper (f.collectNode k n') := by
  have hmember := h.enrolled k n hn
  have hlt : k < f.nodes.length := (List.getElem?_eq_some_iff.mp hn).1
  have hlength : (f.collectNode k n').nodes.length = f.nodes.length := List.length_set
  refine ⟨h.silent, ?_, fun j m hm => ?_, fun i j m hm => ?_, fun j hj => ?_⟩
  · rw [hlength]
    exact h.connected
  · by_cases hj : j = k
    · obtain rfl := hj
      obtain rfl := Option.some.inj ((nodes_collectNode_self hn n').symm.trans hm)
      exact ⟨rfl, ⟨ha.seated.made, ha.seated.registry, ha.seated.counted⟩,
        (hmember.far_of_answers ha :)⟩
    · exact h.enrolled j m (nodes_collectNode_of_ne hj n' ▸ hm)
  -- whatever node `k` sends to a peer is its own, and so no order
  · rcases List.mem_append.mp hm with hm | hm
    · rcases List.mem_append.mp hm with hm | hm
      · exact h.across i j m hm
      · obtain ⟨e, he, hparcel⟩ := List.mem_filterMap.mp hm
        obtain ⟨link, m', rfl, ⟨-, heq⟩ | ⟨-, j', heq⟩⟩ := parcelOfNode?_eq_some hparcel
        · cases heq
        · cases heq
          exact Node.isOrder_of_isFrom (ha.said link m (List.mem_reverse.mp he))
    · split at hm
      · cases List.mem_singleton.mp hm
      · cases hm
  · rw [hlength] at hj
    have hne : j ≠ k := fun heq => by omega
    rw [up_collectNode_of_ne hne, down_collectNode]
    exact h.made j hj

/-- **What a node says is in flight to the registry**, and touches nobody else. -/
theorem Proper.stirred (h : Proper f) (hn : f.nodes[k]? = some n)
    (ha : n.Answers registryLink acc reports holds n') :
    Stirred f k acc reports holds (f.collectNode k n') := by
  have hmember := h.enrolled k n hn
  obtain ⟨ms, hms, hfrom, hreports⟩ := carried_told ha (hmember.far_of_answers ha) f k
  have hup : (f.collectNode k n').up k = f.up k ++ ms := by
    rw [up, carried_collectNode, hms, up]
  refine ⟨h.collectNode hn ha, rfl, rfl, homes_collectNode hn ha.address, fun j => ?_,
    down_collectNode f k n', ?_, fun j hj => ?_⟩
  · by_cases hj : j = k
    · obtain rfl := hj
      exact ⟨ms, hup, fun m hm => ⟨n.address, homes_of_some hn, hfrom m hm⟩⟩
    · refine ⟨[], ?_, fun _ hm => absurd hm List.not_mem_nil⟩
      rw [up_collectNode_of_ne hj, List.append_nil]
  · rw [present_of_some (nodes_collectNode_self hn n'), hup, List.filterMap_append, hreports]
    exact congrArg₂ (fun acc holds => Prospect.mk acc _ holds) ha.account ha.holds
  · exact present_congr (nodes_collectNode_of_ne hj n') (up_collectNode_of_ne hj n')

/-! ### What the registry does -/

/-- From `f` to `g`, the registry has acted. -/
structure Acted (f : Fleet) (a : Registry.Action) (g : Fleet) : Prop where
  proper : Proper g
  ledger : g.registry.ledger = (f.registry.act a).ledger
  deed : Registry.Deed f.registry a g.registry.ledger (f.registry.posted a)
  published : g.reports = (f.registry.act a).reports ++ f.reports
  homes : g.homes = f.homes
  up : ∀ j, g.up j = f.up j
  prospect : ∀ j, g.prospect j = (f.prospect j).takes (f.registry.posted a j)

theorem up_collectRegistry (f : Fleet) (r : Registry) (k : Nat) :
    (f.collectRegistry r).up k = f.up k := by
  change carried _ (f.inFlight ++ _) = _
  rw [carried_append, carried_mail_up, List.append_nil, up]

theorem down_collectRegistry (f : Fleet) (r : Registry) (k : Nat) :
    (f.collectRegistry r).down k = f.down k ++ r.mail k := by
  change carried _ (f.inFlight ++ _) = _
  rw [carried_append, carried_mail, down]

/-- What the registry does, and what it sends only over open connections, keeps a fleet proper. -/
theorem Proper.collectRegistry (h : Proper f) {r : Registry}
    (hends : r.links.ends.length = f.registry.links.ends.length)
    (hmail : ∀ k, r.mail k ≠ [] → f.registry.links.isOpen k = true) :
    Proper (f.collectRegistry r) := by
  refine ⟨rfl, hends.trans h.connected, h.enrolled, fun i j m hm => ?_, fun k hk => ?_⟩
  · rcases List.mem_append.mp hm with hm | hm
    · exact h.across i j m hm
    · obtain ⟨link, m', heq, -⟩ := lane_of_mail hm
      cases heq
  · obtain ⟨hup, hdown⟩ := h.made k hk
    have hnone : r.mail k = [] := by
      by_contra hsome
      have hlt := (Links.isOpen_iff.mp (hmail k hsome)).1
      exact absurd hlt (Nat.not_lt.mpr (h.connected ▸ hk))
    rw [up_collectRegistry, down_collectRegistry, hup, hdown, hnone]
    exact ⟨rfl, rfl⟩

/-- Between two actions, nothing is queued, so that what is queued after one is what it posts. -/
theorem Proper.mail_act (h : Proper f) (a : Registry.Action) (k : Nat) :
    (f.registry.act a).mail k = f.registry.posted a k := by
  have hnone : f.registry.mail k = [] := by rw [mail_eq, h.silent]; rfl
  rw [Registry.posted, hnone]
  rfl

/-- **What the registry sends is taken at once.** -/
theorem Proper.acted (h : Proper f) {a : Registry.Action}
    (hdeed : Registry.Deed f.registry a (f.registry.act a).ledger (f.registry.posted a)) :
    Acted f a (f.collectRegistry (f.registry.act a)) := by
  have hends : (f.registry.act a).links.ends.length = f.registry.links.ends.length :=
    congrArg (fun l : Links Peer => l.ends.length) hdeed.links
  refine ⟨h.collectRegistry hends fun k hk => ?_, rfl, hdeed, ?_, rfl,
    fun j => up_collectRegistry f _ j, fun j => ?_⟩
  · exact (hdeed.queued_on (h.mail_act a k ▸ hk)).1
  · rw [reports_eq]
    rfl
  · rw [prospect, down_collectRegistry, h.mail_act, Prospect.takes_append, prospect]
    exact congrArg (fun p : Prospect => (p.takes _).takes _)
      (present_congr rfl (up_collectRegistry f _ j))

end Fleet

end RingOverlay
