import RingOverlay.Proofs.Fleet.Prospect

/-!
# Fleet — what an action can make of it

`Turn f x g` lists what the action `x` can make of a proper fleet `f`, told by the registry's
ledger, by where nodes listen, by what is in flight to the registry, and by the prospects of its
nodes.  A delivery to a node changes no prospect, so all that counts is what the registry hears and
does, and who joins or leaves.  Nodes stay where they are (`Turn.homes_grow`).

* `Proper.act`: **every action keeps a fleet proper, and is one of those listed.**
-/

namespace RingOverlay

namespace Fleet

variable {f g : Fleet} {k : Nat} {n n' : Node} {acc : Account} {reports : List (NodeId × Nat)}
  {holds : Bool}

/-- The message that an action of the registry has it hear from node `k`. -/
def heard (k : Nat) : Registry.Action → List Message
  | .received link m => if link = k then [m] else []
  | _ => []

/-- The command that an action gives to the registry. -/
def Action.command? : Action → Option Registry.Action
  | .setup size => some (.setup size)
  | .start count => some (.start count)
  | .elapsed ms => some (.elapsed ms)
  | _ => none

/-- What an action can make of a fleet. -/
inductive Turn (f : Fleet) (x : Action) (g : Fleet) : Prop where
  | joins (address : PeerAddress) (peer : Peer)
      (ledger : g.registry.ledger = (f.registry.connect peer).ledger)
      (homes : g.homes = f.homes ++ [address])
      (up : ∀ j, g.up j = if j = f.nodes.length then [.nodeRegisters address] else f.up j)
      (prospect : ∀ j, g.prospect j = f.prospect j) (published : g.reports = f.reports)
  /-- A node takes what the registry or a peer has sent it, or asks to leave. -/
  | stirs (ledger : g.registry.ledger = f.registry.ledger) (homes : g.homes = f.homes)
      (up : ∀ j, ∃ ms, g.up j = f.up j ++ ms ∧
        ∀ m ∈ ms, ∃ a, f.homes[j]? = some a ∧ m.isFrom a = true)
      (prospect : ∀ j, g.prospect j = f.prospect j) (published : g.reports = f.reports)
  /-- The registry's end of a connection closes; the node may have let go of it. -/
  | parts (k : Nat) (ledger : g.registry.ledger = (f.registry.close k).ledger)
      (homes : g.homes = f.homes) (up : ∀ j, g.up j = f.up j)
      (prospect : ∀ j, g.prospect j = f.prospect j ∨ j = k ∧ (g.prospect j).holds = false ∧
        (g.prospect j).pending <+: (f.prospect j).pending)
      (published : g.reports = f.reports)
  | notices (w : Watch)
      (ledger : g.registry.ledger =
        ({ f.registry with watches := f.registry.watches.erase w }.connectionLost w).ledger)
      (closed : w.link ∈ f.registry.links.closed)
      (homes : g.homes = f.homes) (up : ∀ j, g.up j = f.up j)
      (prospect : ∀ j, g.prospect j = f.prospect j)
      (published : g.reports = f.reports)
  /-- The registry carries out a command, lets time pass, or hears what a node has sent it. -/
  | acts (a : Registry.Action) (of : x.command? = some a ∨ ∃ k m, a = .received k m)
      (ledger : g.registry.ledger = (f.registry.act a).ledger)
      (deed : Registry.Deed f.registry a g.registry.ledger (f.registry.posted a))
      (homes : g.homes = f.homes) (up : ∀ j, f.up j = heard j a ++ g.up j)
      (prospect : ∀ j, ∃ p : Prospect,
        f.prospect j = p.owing ((heard j a).filterMap Message.reported?) ∧
        g.prospect j = p.takes (f.registry.posted a j))
      (published : g.reports = (f.registry.act a).reports ++ f.reports)

/-- A fleet to which nothing has happened. -/
theorem turn_refl (f : Fleet) (x : Action) : Turn f x f :=
  .stirs rfl rfl (fun _ => ⟨[], (List.append_nil _).symm, fun _ h => absurd h List.not_mem_nil⟩)
    (fun _ => rfl) rfl

/-- Without one parcel, a fleet is still proper. -/
theorem Proper.takeFrom (h : Proper f) {lane : Lane} {p : Parcel} {rest : List Parcel}
    (htake : takeFrom lane f.inFlight = some (p, rest)) : Proper { f with inFlight := rest } := by
  obtain ⟨-, -, hsub, hcarried⟩ := carried_takeFrom htake
  refine ⟨h.silent, h.connected, h.enrolled, fun i j m hm => h.across i j m (hsub hm),
    fun k hk => ?_⟩
  obtain ⟨hup, hdown⟩ := h.made k hk
  rw [up, hcarried] at hup
  rw [down, hcarried] at hdown
  exact ⟨(List.append_eq_nil_iff.mp hup).2, (List.append_eq_nil_iff.mp hdown).2⟩

/-- A node has said something, after a parcel was taken that the registry had not sent. -/
theorem Stirred.turn {f₁ : Fleet} {x : Action} (h : Stirred f₁ k acc reports holds g)
    (hregistry : f₁.registry = f.registry) (hreports : f₁.reports = f.reports)
    (hhomes : f₁.homes = f.homes) (hup : ∀ j, f₁.up j = f.up j)
    (hprospect : ∀ j, g.prospect j = f.prospect j) : Turn f x g :=
  .stirs (by rw [h.registry, hregistry]) (h.homes.trans hhomes)
    (fun j => hhomes ▸ hup j ▸ h.up j) (fun j => hprospect j) (h.published.trans hreports)

/-- The registry's end of a connection closes. -/
theorem Proper.turn_close (h : Proper f) (k : Nat) (x : Action) :
    Proper (f.closeAt k) ∧ Turn f x (f.closeAt k) := by
  have hends : (f.registry.links.close k).ends.length = f.nodes.length := by
    rw [Links.ends_close]
    exact h.connected
  exact ⟨⟨h.silent, hends, h.enrolled, h.across, h.made⟩,
    .parts k rfl rfl (fun _ => rfl) (fun _ => .inl rfl) rfl⟩

/-! ### Deliveries -/

section Deliveries

variable {lane : Lane} {p : Parcel} {rest : List Parcel} {m : Message} {x : Action}

theorem up_takeFrom (h : takeFrom lane f.inFlight = some (p, rest)) (j : Nat) :
    f.up j = (p.on? (.up j)).toList ++ { f with inFlight := rest }.up j :=
  (carried_takeFrom h).2.2.2 (.up j)

theorem down_takeFrom (h : takeFrom lane f.inFlight = some (p, rest)) (j : Nat) :
    f.down j = (p.on? (.down j)).toList ++ { f with inFlight := rest }.down j :=
  (carried_takeFrom h).2.2.2 (.down j)

/-- A parcel that is not on its way to the registry is no news there. -/
theorem up_takeFrom_of_ne (h : takeFrom lane f.inFlight = some (p, rest)) (j : Nat)
    (hlane : p.lane ≠ .up j) : { f with inFlight := rest }.up j = f.up j := by
  rw [up_takeFrom h, on?_of_ne hlane]
  rfl

theorem down_takeFrom_of_ne (h : takeFrom lane f.inFlight = some (p, rest)) (j : Nat)
    (hlane : p.lane ≠ .down j) : { f with inFlight := rest }.down j = f.down j := by
  rw [down_takeFrom h, on?_of_ne hlane]
  rfl

theorem holdsRegistry_of_some (hn : f.nodes[k]? = some n) :
    f.holdsRegistry k = n.links.isOpen registryLink := by
  rw [holdsRegistry, hn]
  rfl

/-- A node that has let go of the registry takes nothing more. -/
theorem turn_lost (hn : f.nodes[k]? = some n) (hopen : n.links.isOpen registryLink = false)
    (htake : takeFrom (.down k) f.inFlight = some (.toNode k m, rest)) :
    Turn f x { f with inFlight := rest } := by
  let f₁ : Fleet := { f with inFlight := rest }
  have hup : ∀ j, f₁.up j = f.up j :=
    fun j => up_takeFrom_of_ne htake j fun heq => by cases heq
  have hpresent : ∀ j, f₁.present j = f.present j := fun j => present_congr rfl (hup j)
  refine .stirs rfl rfl (fun j => ⟨[], ?_, ?_⟩) (fun j => ?_) rfl
  · rw [List.append_nil]
    exact hup j
  · exact fun _ hm => absurd hm List.not_mem_nil
  · by_cases hj : j = k
    · obtain rfl := hj
      have hpast : (f.present j).holds = false := by rw [present_of_some hn]; exact hopen
      change f₁.prospect j = _
      rw [prospect, prospect, hpresent, Prospect.takes_of_not_holds hpast,
        Prospect.takes_of_not_holds hpast]
    · refine prospect_congr (hpresent j) (down_takeFrom_of_ne htake j fun heq => ?_)
      exact hj (Lane.down.inj heq).symm

/-- What a node takes is the first that was to come to it. -/
theorem Stirred.prospect_of_taken (hn : f.nodes[k]? = some n)
    (hopen : n.links.isOpen registryLink = true)
    (htake : takeFrom (.down k) f.inFlight = some (.toNode k m, rest))
    (hs : Stirred { f with inFlight := rest } k (n.account.handle m)
      (n.account.reports? m).toList (!m.dismisses) g) (j : Nat) :
    g.prospect j = f.prospect j := by
  let f₁ : Fleet := { f with inFlight := rest }
  have hpresent : f₁.present j = f.present j :=
    present_congr rfl (up_takeFrom_of_ne htake j fun heq => by cases heq)
  by_cases hj : j = k
  · obtain rfl := hj
    have hhead : f.down j = m :: f₁.down j := by
      rw [down_takeFrom htake, show (Parcel.toNode j m).on? (.down j) = some m from if_pos rfl]
      rfl
    have hnow : (f.present j).holds = true := by rw [present_of_some hn]; exact hopen
    have htaken : g.present j = (f.present j).take m := by
      rw [hs.self, hpresent, Prospect.take_of_holds hnow, present_of_some hn]
    rw [prospect, prospect, htaken, hs.down, hhead]
    rfl
  · have hdown : f₁.down j = f.down j :=
      down_takeFrom_of_ne htake j fun heq => hj (Lane.down.inj heq).symm
    exact prospect_congr ((hs.others j hj).trans hpresent) ((hs.down j).trans hdown)

/-- What the registry has sent, it has sent to a node that has joined. -/
theorem Proper.exists_node (h : Proper f)
    (htake : Fleet.takeFrom (.down k) f.inFlight = some (.toNode k m, rest)) :
    ∃ n, f.nodes[k]? = some n := by
  have hlength : k < f.nodes.length := by
    by_contra hge
    have hnone := down_takeFrom htake k
    rw [(h.made k (Nat.le_of_not_lt hge)).2,
      show (Parcel.toNode k m).on? (.down k) = some m from if_pos rfl] at hnone
    cases hnone
  exact ⟨_, List.getElem?_eq_getElem hlength⟩

/-- **That a node takes what the registry has sent it leaves its prospect as it is.** -/
theorem Proper.turn_down (h : Proper f)
    (htake : Fleet.takeFrom (.down k) f.inFlight = some (.toNode k m, rest)) (draws : Draws) :
    Proper ({ f with inFlight := rest }.deliver draws (.toNode k m)) ∧
      Turn f x ({ f with inFlight := rest }.deliver draws (.toNode k m)) := by
  let f₁ : Fleet := { f with inFlight := rest }
  have hproper : Proper f₁ := h.takeFrom htake
  obtain ⟨n, hn⟩ := h.exists_node htake
  have hmember := h.enrolled k n hn
  have hholds : f₁.holdsRegistry k = n.links.isOpen registryLink := holdsRegistry_of_some hn
  rw [deliver, hholds]
  cases hopen : n.links.isOpen registryLink with
  | false => exact ⟨hproper, turn_lost hn hopen htake⟩
  | true =>
    have hreceive : f₁.receiveAt draws k m =
        f₁.collectNode k (n.receive f₁.reaches draws registryLink m) := by
      rw [receiveAt, show f₁.nodes[k]? = some n from hn]
    have hs := hproper.stirred hn
      (Node.answers_receive hmember.seated hmember.silent hopen f₁.reaches draws m)
    rw [if_pos rfl, hreceive]
    exact ⟨hs.proper, hs.turn rfl rfl rfl
      (fun j => up_takeFrom_of_ne htake j fun heq => by cases heq)
      (hs.prospect_of_taken hn hopen htake)⟩

/-- A node that says something without reporting anything has the prospect it had. -/
theorem Stirred.prospect {f₁ : Fleet}
    (h : Stirred f₁ k n.account [] (n.links.isOpen registryLink) g)
    (hn : f₁.nodes[k]? = some n) (j : Nat) : g.prospect j = f₁.prospect j := by
  refine prospect_congr ?_ (h.down j)
  by_cases hj : j = k
  · obtain rfl := hj
    rw [h.self, List.append_nil, present_of_some hn]
  · exact h.others j hj

/-- What peers send bears on no prospect. -/
theorem Proper.turn_across (h : Proper f) {i : Nat}
    (htake : Fleet.takeFrom (.across i k) f.inFlight = some (.toPeer i k m, rest)) (draws : Draws) :
    Proper ({ f with inFlight := rest }.deliver draws (.toPeer i k m)) ∧
      Turn f x ({ f with inFlight := rest }.deliver draws (.toPeer i k m)) := by
  let f₁ : Fleet := { f with inFlight := rest }
  have hproper : Proper f₁ := h.takeFrom htake
  have hup : ∀ j, f₁.up j = f.up j :=
    fun j => up_takeFrom_of_ne htake j fun heq => by cases heq
  have hdown : ∀ j, f₁.down j = f.down j :=
    fun j => down_takeFrom_of_ne htake j fun heq => by cases heq
  have hsame : ∀ j, f₁.prospect j = f.prospect j :=
    fun j => prospect_congr (present_congr rfl (hup j)) (hdown j)
  change Proper (f₁.receiveAt draws k m) ∧ Turn f x (f₁.receiveAt draws k m)
  rw [receiveAt]
  cases hn : f₁.nodes[k]? with
  | none =>
    refine ⟨hproper, .stirs rfl rfl (fun j => ⟨[], ?_, ?_⟩) hsame rfl⟩
    · rw [List.append_nil]
      exact hup j
    · exact fun _ hm => absurd hm List.not_mem_nil
  | some n =>
    have hmember := hproper.enrolled k n hn
    have horder := h.across i k m (carried_takeFrom htake).2.1
    have hs := hproper.stirred hn
      (Node.answers_aside horder hmember.seated hmember.silent f₁.reaches draws)
    exact ⟨hs.proper, hs.turn rfl rfl rfl hup fun j => (hs.prospect hn j).trans (hsame j)⟩

/-- The registry hears what a node has reported before anything else of it. -/
theorem Proper.turn_up (h : Proper f)
    (htake : Fleet.takeFrom (.up k) f.inFlight = some (.toRegistry k m, rest)) (draws : Draws) :
    Proper ({ f with inFlight := rest }.deliver draws (.toRegistry k m)) ∧
      Turn f x ({ f with inFlight := rest }.deliver draws (.toRegistry k m)) := by
  let f₁ : Fleet := { f with inFlight := rest }
  have hproper : Proper f₁ := h.takeFrom htake
  have hup : ∀ j, f.up j = heard j (.received k m) ++ f₁.up j := by
    intro j
    have hlane : ((Parcel.toRegistry k m).on? (.up j)).toList = heard j (.received k m) := by
      rw [on?_toRegistry, heard]
      split <;> rfl
    rw [up_takeFrom htake, hlane]
  have hdown : ∀ j, f₁.down j = f.down j :=
    fun j => down_takeFrom_of_ne htake j fun heq => by cases heq
  have hs := hproper.acted (Registry.deed_received f₁.registry k m)
  refine ⟨hs.proper, .acts (.received k m) (.inr ⟨k, m, rfl⟩) hs.ledger hs.deed hs.homes
    (fun j => ?_) (fun j => ⟨f₁.prospect j, ?_, hs.prospect j⟩) hs.published⟩
  · exact (hup j).trans (congrArg (heard j (.received k m) ++ ·) (hs.up j).symm)
  · have hpresent : f.present j =
        (f₁.present j).owing ((heard j (.received k m)).filterMap Message.reported?) := by
      rw [present, hup, List.filterMap_append]
      rfl
    rw [prospect, prospect, hpresent, Prospect.takes_owing, hdown]

/-- That a node has hung up tells the registry nothing but that. -/
theorem Proper.turn_hangUp (h : Proper f)
    (htake : Fleet.takeFrom (.up k) f.inFlight = some (.hangUp k, rest)) (x : Action) :
    Proper ({ f with inFlight := rest }.closeAt k) ∧
      Turn f x ({ f with inFlight := rest }.closeAt k) := by
  let f₁ : Fleet := { f with inFlight := rest }
  have hempty : ∀ lane, (Parcel.hangUp k).on? lane = none := by
    intro lane
    unfold Parcel.on?
    split <;> rfl
  have hup : ∀ j, f₁.up j = f.up j := fun j => by
    rw [up_takeFrom htake, hempty]
    rfl
  have hdown : ∀ j, f₁.down j = f.down j := fun j => by
    rw [down_takeFrom htake, hempty]
    rfl
  refine ⟨((h.takeFrom htake).turn_close k x).1, .parts k rfl rfl hup (fun j => .inl ?_) rfl⟩
  exact prospect_congr (g := f₁.closeAt k) (present_congr rfl (hup j)) (hdown j)

end Deliveries

/-! ### Commands, and nodes that come and go -/

theorem Proper.turn_command (h : Proper f) {x : Action} {a : Registry.Action}
    (hx : x.command? = some a)
    (hdeed : Registry.Deed f.registry a (f.registry.act a).ledger (f.registry.posted a)) :
    Proper (f.collectRegistry (f.registry.act a)) ∧
      Turn f x (f.collectRegistry (f.registry.act a)) := by
  have hs := h.acted hdeed
  have hdeaf : ∀ j, heard j a = [] := by
    intro j
    cases x with
    | setup _ | start _ | elapsed _ => cases hx; rfl
    | _ => cases hx
  refine ⟨hs.proper, .acts a (.inl hx) hs.ledger hs.deed hs.homes (fun j => ?_)
    (fun j => ⟨f.prospect j, ?_, hs.prospect j⟩) hs.published⟩
  · rw [hdeaf, hs.up]
    rfl
  · rw [hdeaf]
    rfl

theorem Proper.turn_exit (h : Proper f) (k : Nat) (x : Action) :
    Proper (f.exit k).1 ∧ Turn f x (f.exit k).1 := by
  unfold exit
  split
  · exact ⟨h, turn_refl f x⟩
  · next n hn =>
    have hmember := h.enrolled k n hn
    have hs := h.stirred hn (Node.answers_exit hmember.seated hmember.silent)
    exact ⟨hs.proper, hs.turn rfl rfl rfl (fun _ => rfl) (hs.prospect hn)⟩

theorem Proper.turn_break (h : Proper f) (k : Nat) (x : Action) :
    Proper (f.breakLink k) ∧ Turn f x (f.breakLink k) := by
  unfold breakLink
  split
  · exact ⟨h, turn_refl f x⟩
  · next n hn =>
    have hmember := h.enrolled k n hn
    have hlt : k < f.nodes.length := (List.getElem?_eq_some_iff.mp hn).1
    let f₁ : Fleet := { f with nodes := f.nodes.set k (n.close registryLink) }
    have hself : f₁.nodes[k]? = some (n.close registryLink) := List.getElem?_set_self hlt
    have hother : ∀ j, j ≠ k → f₁.nodes[j]? = f.nodes[j]? :=
      fun j hj => List.getElem?_set_ne hj.symm
    have hlength : f₁.nodes.length = f.nodes.length := List.length_set
    have hends : (n.links.close registryLink).ends = n.links.ends := Links.ends_close _
    have hclosed := Links.isOpen_close_self n.links registryLink
    have henrolled : Enrolled (n.close registryLink) := by
      refine ⟨hmember.silent, ⟨?_, fun hopen => ?_, hmember.seated.counted⟩, ?_⟩
      · exact hends ▸ hmember.seated.made
      · exact absurd (hclosed.symm.trans hopen) Bool.false_ne_true
      · exact (Links.end?_close _).trans hmember.far
    have hproper : Proper f₁ := by
      refine ⟨h.silent, h.connected.trans hlength.symm, fun j m hm => ?_, h.across, fun j hj => ?_⟩
      · by_cases hj : j = k
        · obtain rfl := hj
          obtain rfl := Option.some.inj (hself.symm.trans hm)
          exact henrolled
        · exact h.enrolled j m (hother j hj ▸ hm)
      · exact h.made j (hlength ▸ hj)
    have hhomes : f₁.homes = f.homes := homes_set hn rfl
    refine ⟨(hproper.turn_close k x).1, .parts k rfl hhomes (fun _ => rfl) (fun j => ?_) rfl⟩
    change f₁.prospect j = _ ∨ j = k ∧ (f₁.prospect j).holds = false ∧
      (f₁.prospect j).pending <+: _
    by_cases hj : j = k
    · obtain rfl := hj
      have hgone : (f₁.present j).holds = false := by
        rw [present_of_some hself]
        exact hclosed
      refine .inr ⟨rfl, ?_⟩
      rw [prospect, Prospect.takes_of_not_holds hgone]
      exact ⟨hgone, (Prospect.pending_prefix_takes (f.present j) (f.down j) :)⟩
    · exact .inl (prospect_congr (present_congr (hother j hj) rfl) rfl)

/-- That a registration is lost is told to nobody. -/
theorem Proper.mail_lost (h : Proper f) (w : Watch) (k : Nat) :
    ({ f.registry with watches := f.registry.watches.erase w }.connectionLost w).mail k = [] := by
  rw [Registry.mail_congr (Registry.outbox_connectionLost _ w)]
  change f.registry.mail k = []
  rw [mail_eq, h.silent]
  rfl

theorem Proper.turn_notice (h : Proper f) (w : Watch) (x : Action) :
    Proper (f.notice w) ∧ Turn f x (f.notice w) := by
  unfold notice
  dsimp only
  split
  · next hw =>
    have hreports : ({ f.registry with
        watches := f.registry.watches.erase w }.connectionLost w).reports = [] := by
      rw [Registry.reports_congr (Registry.outbox_connectionLost _ w)]
      change f.registry.reports = []
      rw [reports_eq, h.silent]
      rfl
    have hlinks := (Registry.roll_connectionLost
      { f.registry with watches := f.registry.watches.erase w } w).1
    refine ⟨h.collectRegistry ?_ fun k hk => absurd (h.mail_lost w k) hk,
      .notices w rfl hw.2 rfl (fun j => up_collectRegistry f _ j) (fun j => ?_) ?_⟩
    · rw [hlinks]
    · refine prospect_congr (present_congr rfl (up_collectRegistry f _ j)) ?_
      rw [down_collectRegistry, h.mail_lost, List.append_nil]
    · change _ ++ f.reports = f.reports
      rw [← reports_eq, hreports]
      rfl
  · exact ⟨h, turn_refl f x⟩

/-- A node that has just joined has asked to register, and has no other account. -/
theorem join_eq (output : Bool) (address : PeerAddress) :
    ∃ n : Node, Node.join { registry := registryAddress, output := output } address = n ∧
      n.address = address ∧
      n.effects = [.logged (.state none .unregistered "registration requested"),
        .sent registryLink (.nodeRegisters address)] ∧
      n.account = .zero ∧ n.links.isOpen registryLink = true ∧
      Enrolled { n with effects := [] } := by
  have hcached : Node.registry? { Node.join { registry := registryAddress, output := output }
      address with effects := [] } = some registryLink := by
    rfl
  refine ⟨_, rfl, rfl, rfl, rfl, rfl, rfl, ⟨Nat.zero_lt_one, fun _ => ?_, ?_⟩, rfl⟩
  · exact hcached
  · exact Nat.zero_le _

/-- The fleet with one more node, whose request to register is under way. -/
def enrolling (f : Fleet) (peer : Peer) (n : Node) : Fleet where
  registry := f.registry.connect peer
  nodes := f.nodes ++ [n]
  inFlight := f.inFlight ++ [.toRegistry f.nodes.length (.nodeRegisters n.address)]
  reports := f.reports

/-- All that is in flight from a node that has just joined is its request. -/
theorem join_eq_enrolling (f : Fleet) (output : Bool) (address : PeerAddress) (peer : Peer) :
    ∃ n : Node, n.address = address ∧ n.account = .zero ∧ n.links.isOpen registryLink = true ∧
      Enrolled n ∧ f.join output address peer = f.enrolling peer n := by
  obtain ⟨n, hjoin, haddress, heffects, haccount, hopen, henrolled⟩ := join_eq output address
  refine ⟨{ n with effects := [] }, haddress, haccount, hopen, henrolled, ?_⟩
  have hfar : n.links.end? registryLink = some (.dialed registryAddress) := henrolled.far
  rw [join, hjoin]
  dsimp only
  rw [collectNode, heffects, hopen]
  simp [parcelOfNode?, hfar, enrolling, haddress]

theorem nodes_enrolling_of_lt (peer : Peer) (n : Node) {j : Nat} (hj : j < f.nodes.length) :
    (f.enrolling peer n).nodes[j]? = f.nodes[j]? :=
  List.getElem?_append_left hj

theorem nodes_enrolling_new (f : Fleet) (peer : Peer) (n : Node) :
    (f.enrolling peer n).nodes[f.nodes.length]? = some n :=
  List.getElem?_concat_length

theorem homes_enrolling (f : Fleet) (peer : Peer) (n : Node) :
    (f.enrolling peer n).homes = f.homes ++ [n.address] :=
  List.map_append

theorem length_enrolling (f : Fleet) (peer : Peer) (n : Node) :
    (f.enrolling peer n).nodes.length = f.nodes.length + 1 :=
  List.length_append

theorem Proper.up_enrolling (h : Proper f) (peer : Peer) (n : Node) (j : Nat) :
    (f.enrolling peer n).up j =
      if j = f.nodes.length then [.nodeRegisters n.address] else f.up j := by
  change carried _ (f.inFlight ++ _) = _
  rw [carried_append, carried_cons, on?_toRegistry]
  by_cases hj : j = f.nodes.length
  · obtain rfl := hj
    rw [if_pos rfl, if_pos rfl, ← up, (h.made _ (Nat.le_refl _)).1]
    rfl
  · rw [if_neg hj, if_neg (Ne.symm hj)]
    exact List.append_nil _

theorem down_enrolling (f : Fleet) (peer : Peer) (n : Node) (j : Nat) :
    (f.enrolling peer n).down j = f.down j := by
  change carried _ (f.inFlight ++ _) = _
  rw [carried_append, carried_cons, on?_of_ne fun heq => by cases heq]
  exact List.append_nil _

theorem Proper.enrolling (h : Proper f) (peer : Peer) (hn : Enrolled n) :
    Proper (f.enrolling peer n) := by
  have hlength := f.length_enrolling peer n
  refine ⟨h.silent, ?_, fun j m hm => ?_, fun i j m hm => ?_, fun j hj => ?_⟩
  · rw [hlength, ← h.connected]
    exact List.length_append
  · rcases Nat.lt_trichotomy j f.nodes.length with hj | rfl | hj
    · exact h.enrolled j m (nodes_enrolling_of_lt peer n hj ▸ hm)
    · obtain rfl := Option.some.inj ((f.nodes_enrolling_new peer n).symm.trans hm)
      exact hn
    · rw [List.getElem?_eq_none (by omega)] at hm
      cases hm
  · rcases List.mem_append.mp hm with hm | hm
    · exact h.across i j m hm
    · cases List.mem_singleton.mp hm
  · rw [h.up_enrolling, down_enrolling, if_neg (by omega)]
    exact h.made j (by omega)

/-- What a node that joins brings in flight is no report, and it is as it was said to be before. -/
theorem Proper.present_enrolling (h : Proper f) (peer : Peer) (haccount : n.account = .zero)
    (hopen : n.links.isOpen registryLink = true) (j : Nat) :
    (f.enrolling peer n).present j = f.present j := by
  by_cases hj : j = f.nodes.length
  · obtain rfl := hj
    rw [present_of_some (f.nodes_enrolling_new peer n), h.up_enrolling, if_pos rfl, haccount, hopen,
      present, (h.made _ (Nat.le_refl _)).1, standing, List.getElem?_eq_none (Nat.le_refl _)]
    rfl
  · have hup : (f.enrolling peer n).up j = f.up j := by rw [h.up_enrolling, if_neg hj]
    rcases Nat.lt_or_gt_of_ne hj with hlt | hgt
    · exact present_congr (nodes_enrolling_of_lt peer n hlt) hup
    · have hlength := f.length_enrolling peer n
      refine present_congr ?_ hup
      rw [List.getElem?_eq_none (by omega), List.getElem?_eq_none (by omega)]

theorem Proper.turn_join (h : Proper f) (output : Bool) (address : PeerAddress) (peer : Peer)
    (x : Action) :
    Proper (f.join output address peer) ∧ Turn f x (f.join output address peer) := by
  obtain ⟨n, rfl, haccount, hopen, henrolled, hjoin⟩ := f.join_eq_enrolling output address peer
  rw [hjoin]
  exact ⟨h.enrolling peer henrolled, .joins n.address peer rfl (f.homes_enrolling peer n)
    (h.up_enrolling peer n) (fun j => prospect_congr (h.present_enrolling peer haccount hopen j)
      (f.down_enrolling peer n j)) rfl⟩

/-- **Every action keeps a fleet proper**, and is one of those listed. -/
theorem Proper.act (h : Proper f) (x : Action) : Proper (f.act x) ∧ Turn f x (f.act x) := by
  cases x with
  | joined output address peer => exact h.turn_join output address peer _
  | setup size => exact h.turn_command rfl (Registry.deed_setup f.registry size)
  | start count => exact h.turn_command rfl (Registry.deed_start f.registry count)
  | elapsed ms => exact h.turn_command rfl (Registry.deed_elapsed f.registry ms)
  | exited k => exact h.turn_exit k _
  | broke k => exact h.turn_break k _
  | noticed w => exact h.turn_notice w _
  | delivered lane draws =>
    rw [Fleet.act]
    cases htake : Fleet.takeFrom lane f.inFlight with
    | none => exact ⟨h, turn_refl f _⟩
    | some taken =>
      obtain ⟨p, rest⟩ := taken
      obtain ⟨hlane, -⟩ := carried_takeFrom htake
      subst hlane
      cases p with
      | toRegistry k m => exact h.turn_up htake draws
      | toNode k m => exact h.turn_down htake draws
      | toPeer i k m => exact h.turn_across htake draws
      | hangUp k =>
        exact h.turn_hangUp htake _

/-! ### Where nodes listen -/

/-- The nodes of a fleet listen where `place` says; it may say so of nodes that are still to
join. -/
def Listed (place : Nat → PeerAddress) (f : Fleet) : Prop :=
  ∀ (k : Nat) a, f.homes[k]? = some a → a = place k

variable {place : Nat → PeerAddress}

/-- What is said of nodes, is said of those that joined first. -/
theorem Listed.of_prefix (h : Listed place g) (hbefore : f.homes <+: g.homes) : Listed place f := by
  intro k a ha
  obtain ⟨later, hlater⟩ := hbefore
  obtain ⟨hk, -⟩ := List.getElem?_eq_some_iff.mp ha
  exact h k a (hlater ▸ (List.getElem?_append_left hk).trans ha)

/-- A node that joins listens where it was to. -/
theorem Listed.of_joined {a : PeerAddress} (h : Listed place g) (hg : g.homes = f.homes ++ [a]) :
    a = place f.nodes.length := by
  refine h f.nodes.length a ?_
  rw [hg, ← f.length_homes]
  exact List.getElem?_concat_length

theorem Listed.of_homes (h : Listed place f) (hg : g.homes = f.homes) : Listed place g :=
  h.of_prefix (hg ▸ List.prefix_refl g.homes)

/-- What is from the place where a node listens, is from where it was to listen. -/
theorem Listed.isFrom (h : Listed place f) {m : Message}
    (hm : ∃ a, f.homes[k]? = some a ∧ m.isFrom a = true) : m.isFrom (place k) = true := by
  obtain ⟨a, ha, hfrom⟩ := hm
  exact h k a ha ▸ hfrom

theorem exists_listed (f : Fleet) : ∃ place, Listed place f := by
  refine ⟨fun k => f.homes[k]?.getD registryAddress, fun k a ha => ?_⟩
  change a = f.homes[k]?.getD registryAddress
  rw [ha]
  rfl

/-- Nodes never go away, nor do they move. -/
theorem Turn.homes_grow {x : Action} (h : Turn f x g) : f.homes <+: g.homes := by
  cases h with
  | joins address _ _ homes => exact homes ▸ List.prefix_append f.homes [address]
  | stirs _ homes => exact homes ▸ List.prefix_refl g.homes
  | parts _ _ homes => exact homes ▸ List.prefix_refl g.homes
  | notices _ _ _ homes => exact homes ▸ List.prefix_refl g.homes
  | acts _ _ _ _ homes => exact homes ▸ List.prefix_refl g.homes

theorem Proper.run (h : Proper f) (xs : List Action) :
    Proper (f.run xs) ∧ f.homes <+: (f.run xs).homes := by
  induction xs generalizing f with
  | nil => exact ⟨h, List.prefix_refl _⟩
  | cons x xs ih =>
    obtain ⟨hproper, hturn⟩ := h.act x
    obtain ⟨hrun, hprefix⟩ := ih hproper
    exact ⟨hrun, hturn.homes_grow.trans hprefix⟩

end Fleet

end RingOverlay
