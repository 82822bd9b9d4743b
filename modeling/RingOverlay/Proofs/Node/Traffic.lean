import RingOverlay.Node.Handlers

/-!
# Node — the traffic of a handler

What a handler does for the traffic of the overlay is told by what it leaves behind: the counters,
the packets it logs as originated and as delivered, and the packets it queues on connections.
`Traffic n n' c o d q` says that a handler that takes `n` to `n'` leaves the counters `c`, has
originated `o`, delivered `d` and queued `q`, each oldest first, and has changed nothing else of the
node.  Handlers that run one after the other add up (`Traffic.trans`).

* `forward_traffic`: a packet is queued on the connection of its route, or on none.
* `initiateTask_traffic`: a task originates the packets of its batch, which are drafted from its
  draws, and queues those that have a route.
* `packetArrived_self`, `packetArrived_other`: a packet is delivered where it is due, and elsewhere
  goes on along its route, if it has one, with one more node on its trace.
-/

namespace RingOverlay

/-- What a packet brings from its source to its destination. -/
structure Cargo where
  src : NodeId
  dst : NodeId
  payload : Int32
  deriving DecidableEq, Repr

/-- The cargo of a packet, which is the packet without its trace. -/
def Packet.cargo (p : Packet) : Cargo := ⟨p.src, p.dst, p.payload⟩

/-- A packet that a node has taken in, and the hops it had taken. -/
structure Delivery where
  node : NodeId
  cargo : Cargo
  hops : Nat
  deriving DecidableEq, Repr

namespace NodeEffect

/-- The cargo of a packet that is logged as originated. -/
def originated? : NodeEffect → Option Cargo
  | .logged (.packet _ .originated src dst payload _) => some ⟨src, dst, payload⟩
  | _ => none

/-- A packet that is logged as delivered. -/
def delivered? : NodeEffect → Option Delivery
  | .logged (.packet node .delivered src dst payload hops) =>
    some ⟨node, ⟨src, dst, payload⟩, hops⟩
  | _ => none

/-- A packet that is queued, and the connection it is queued on. -/
def queued? : NodeEffect → Option (LinkId × Packet)
  | .sent link (.dataPacket p) => some (link, p)
  | _ => none

end NodeEffect

namespace Node

open NodeEffect

/-- The connection that a packet for `dst` is queued on: that of the finger chosen for it. -/
def route? (n : Node) (dst : NodeId) : Option LinkId :=
  (n.topology.table.nextHop dst).bind fun hop => n.live? hop.entry.address

/-- From `n` to `n'`, only traffic has passed: the counters are `c`, and since then `o` has been
originated, `d` delivered and `q` queued, oldest first. -/
def Traffic (n n' : Node) (c : Counters) (o : List Cargo) (d : List Delivery)
    (q : List (LinkId × Packet)) : Prop :=
  ∃ es : List NodeEffect, n' = { n with counters := c, effects := es ++ n.effects } ∧
    es.reverse.filterMap originated? = o ∧ es.reverse.filterMap delivered? = d ∧
    es.reverse.filterMap queued? = q

namespace Traffic

variable {n n₁ n₂ : Node} {c c₁ c₂ : Counters} {o o₁ o₂ : List Cargo} {d d₁ d₂ : List Delivery}
  {q q₁ q₂ : List (LinkId × Packet)}

theorem refl (n : Node) : Traffic n n n.counters [] [] [] := ⟨[], rfl, rfl, rfl, rfl⟩

theorem trans (h₁ : Traffic n n₁ c₁ o₁ d₁ q₁) (h₂ : Traffic n₁ n₂ c₂ o₂ d₂ q₂) :
    Traffic n n₂ c₂ (o₁ ++ o₂) (d₁ ++ d₂) (q₁ ++ q₂) := by
  obtain ⟨es₁, rfl, rfl, rfl, rfl⟩ := h₁
  obtain ⟨es₂, rfl, rfl, rfl, rfl⟩ := h₂
  refine ⟨es₂ ++ es₁, ?_, ?_, ?_, ?_⟩
  · rw [List.append_assoc]
  all_goals rw [List.reverse_append, List.filterMap_append]

/-- One effect. -/
theorem emit (n : Node) (e : NodeEffect) :
    Traffic n (n.emit e) n.counters (originated? e).toList (delivered? e).toList
      (queued? e).toList := by
  refine ⟨[e], rfl, ?_, ?_, ?_⟩
  · cases h : originated? e <;> simp [h]
  · cases h : delivered? e <;> simp [h]
  · cases h : queued? e <;> simp [h]

/-- The counters change. -/
theorem count (n : Node) (c : Counters) : Traffic n { n with counters := c } c [] [] [] :=
  ⟨[], rfl, rfl, rfl, rfl⟩

/-- What is kept of the node. -/
theorem same (h : Traffic n n₁ c o d q) : n₁.address = n.address ∧ n₁.topology = n.topology ∧
    n₁.links = n.links ∧ n₁.cache = n.cache ∧ n₁.counters = c := by
  obtain ⟨es, rfl, -⟩ := h
  exact ⟨rfl, rfl, rfl, rfl, rfl⟩

theorem route?_eq (h : Traffic n n₁ c o d q) (dst : NodeId) : n₁.route? dst = n.route? dst := by
  obtain ⟨es, rfl, -⟩ := h
  rfl

end Traffic

/-! ### Forwarding -/

theorem forward_of_route {n : Node} {me : NodeId} {p : Packet} {link : LinkId}
    (h : n.route? p.dst = some link) :
    n.forward me p = (n.emit (.sent link (.dataPacket p)), true) := by
  obtain ⟨hop, hhop, hlive⟩ := Option.bind_eq_some_iff.mp h
  simp only [forward, hhop, hlive]

theorem forward_of_no_route {n : Node} (me : NodeId) {p : Packet} (h : n.route? p.dst = none) :
    (n.forward me p).2 = false ∧ Traffic n (n.forward me p).1 n.counters [] [] [] := by
  simp only [forward]
  split
  · exact ⟨rfl, .trans (.emit _ _) (.emit _ _)⟩
  · next hop hhop =>
    have hlive : n.live? hop.entry.address = none := by
      simpa [route?, hhop] using h
    simp only [hlive]
    exact ⟨trivial, .trans (.emit _ _) (.emit _ _)⟩

/-- A packet is queued on the connection of its route, or dropped. -/
theorem forward_traffic (n : Node) (me : NodeId) (p : Packet) :
    Traffic n (n.forward me p).1 n.counters [] [] ((n.route? p.dst).map (·, p)).toList := by
  cases h : n.route? p.dst with
  | none => exact (forward_of_no_route me h).2
  | some link =>
    rw [forward_of_route h]
    exact .emit n (.sent link (.dataPacket p))

/-! ### Originating -/

/-- The packets that a task is drafted into: for each, a destination and then a payload is drawn. -/
def drafts (me : NodeId) (others : List NodeId) : (count : Nat) → Draws → List Packet
  | 0, _ => []
  | count + 1, draws =>
    match others[(draws.below others.length).1]? with
    | none => []
    | some dst =>
      ⟨dst, me, (draws.below others.length).2.payload.1, []⟩ ::
        drafts me others count (draws.below others.length).2.payload.2

/-- A node originates a packet that it has drafted. -/
def ship (n : Node) (p : Packet) : Node :=
  (({ n with counters := n.counters.recordSent p.payload }.log
    (.packet p.src .originated p.src p.dst p.payload 0)).forward p.src p).1

theorem originate_eq (me : NodeId) (others : List NodeId) (count : Nat) (draws : Draws)
    (n : Node) :
    originate me others count draws n = (drafts me others count draws).foldl ship n := by
  induction count generalizing draws n with
  | zero => rfl
  | succ count ih =>
    simp only [originate, drafts]
    cases others[(draws.below others.length).1]? with
    | none => rfl
    | some dst => exact ih _ _

theorem mem_drafts {me : NodeId} {others : List NodeId} {count : Nat} {draws : Draws} {p : Packet}
    (h : p ∈ drafts me others count draws) : p.src = me ∧ p.dst ∈ others ∧ p.trace = [] := by
  induction count generalizing draws with
  | zero => simp [drafts] at h
  | succ count ih =>
    simp only [drafts] at h
    split at h
    · simp at h
    · next dst hdst =>
      rcases List.mem_cons.mp h with rfl | h
      · exact ⟨rfl, List.mem_of_getElem? hdst, rfl⟩
      · exact ih h

/-- The packets of a task for node `id`: none, if there is nobody else to send to. -/
def batch (n : Node) (id : NodeId) (draws : Draws) (count : Nat) : List Packet :=
  if n.topology.nodeIds.filter (· != id) = [] then []
  else drafts id (n.topology.nodeIds.filter (· != id)) count draws

theorem mem_batch {n : Node} {id : NodeId} {draws : Draws} {count : Nat} {p : Packet}
    (h : p ∈ n.batch id draws count) :
    p.src = id ∧ p.dst ∈ n.topology.nodeIds ∧ p.dst ≠ id ∧ p.trace = [] := by
  unfold batch at h
  split at h
  · simp at h
  · obtain ⟨hsrc, hdst, htrace⟩ := mem_drafts h
    obtain ⟨hmem, hne⟩ := List.mem_filter.mp hdst
    exact ⟨hsrc, hmem, by simpa using hne, htrace⟩

theorem ship_traffic (n : Node) (p : Packet) :
    Traffic n (n.ship p) (n.counters.recordSent p.payload) [p.cargo] []
      ((n.route? p.dst).map (·, p)).toList := by
  have hlog : Traffic n ({ n with counters := n.counters.recordSent p.payload }.log
      (.packet p.src .originated p.src p.dst p.payload 0)) _ [p.cargo] [] [] :=
    .trans (.count n _) (.emit _ _)
  exact hlog.trans (forward_traffic _ _ _)

theorem foldl_ship_traffic (ps : List Packet) (n : Node) :
    Traffic n (ps.foldl ship n) (ps.foldl (fun c p => c.recordSent p.payload) n.counters)
      (ps.map Packet.cargo) [] (ps.filterMap fun p => (n.route? p.dst).map (·, p)) := by
  induction ps generalizing n with
  | nil => exact .refl n
  | cons p ps ih =>
    have hp := ship_traffic n p
    have hps := ih (n.ship p)
    -- the first packet takes away no route, so the others are routed as from `n`
    simp only [hp.route?_eq, hp.same.2.2.2.2] at hps
    have hsplit : (p :: ps).filterMap (fun p => (n.route? p.dst).map (·, p)) =
        ((n.route? p.dst).map (·, p)).toList ++
          ps.filterMap fun p => (n.route? p.dst).map (·, p) := by
      cases h : n.route? p.dst <;> simp [h]
    rw [hsplit]
    exact hp.trans hps

/-- A message to the registry is no traffic of packets. -/
theorem sendToRegistry_traffic (n : Node) {m : Message} (h : ∀ p, m ≠ .dataPacket p) :
    Traffic n (n.sendToRegistry m) n.counters [] [] [] := by
  simp only [sendToRegistry]
  split
  · next link _ =>
    have hq : queued? (.sent link m) = none := by
      cases m <;> first | rfl | exact absurd rfl (h _)
    have ht := Traffic.emit n (.sent link m)
    rwa [hq] at ht
  · exact .emit _ _

/-- A node that is told to originate packets ships those of its batch, and says so. -/
theorem initiateTask_eq {n : Node} {id : NodeId} (hid : n.topology.id = some id) (draws : Draws)
    (count : UInt32) :
    let n' := (n.batch id draws count.toNat).foldl ship n
    n.initiateTask draws count =
      (n'.log (.state (some id) n'.state s!"finished sending {count.toNat} packets")).sendToRegistry
        (.taskFinished n'.address id) := by
  have horig : (if n.topology.nodeIds.filter (· != id) = [] then n
      else originate id (n.topology.nodeIds.filter (· != id)) count.toNat draws n) =
      (n.batch id draws count.toNat).foldl ship n := by
    unfold batch
    split
    · rfl
    · exact originate_eq _ _ _ _ _
  simp only [initiateTask, hid, horig]

/-- **A task.**  A node originates the packets of the task, counts them as sent, and queues those
that have a route. -/
theorem initiateTask_traffic {n : Node} {id : NodeId} (hid : n.topology.id = some id)
    (draws : Draws) (count : UInt32) :
    Traffic n (n.initiateTask draws count)
      ((n.batch id draws count.toNat).foldl (fun c p => c.recordSent p.payload) n.counters)
      ((n.batch id draws count.toNat).map Packet.cargo) []
      ((n.batch id draws count.toNat).filterMap fun p => (n.route? p.dst).map (·, p)) := by
  have hreport : ∀ n₁ : Node, Traffic n₁ ((n₁.log (.state (some id) n₁.state
      s!"finished sending {count.toNat} packets")).sendToRegistry (.taskFinished n₁.address id))
      n₁.counters [] [] [] :=
    fun n₁ => .trans (.emit n₁ _) (sendToRegistry_traffic _ fun p => by simp)
  have hships := foldl_ship_traffic (n.batch id draws count.toNat) n
  have hall := hships.trans (hreport _)
  rw [hships.same.2.2.2.2] at hall
  rw [initiateTask_eq hid]
  simpa only [List.append_nil] using hall

/-! ### A packet arrives -/

/-- A packet that is due at the node is delivered. -/
theorem packetArrived_self {n : Node} {p : Packet} (hid : n.topology.id = some p.dst) :
    Traffic n (n.packetArrived p) (n.counters.recordReceived p.payload) []
      [⟨p.dst, p.cargo, p.trace.length⟩] [] := by
  simp only [packetArrived, hid, if_true]
  exact .trans (.count n _) (.emit _ _)

/-- A packet for another node goes on along its route, and is counted as relayed. -/
theorem packetArrived_other {n : Node} {me : NodeId} {p : Packet} {link : LinkId}
    (hid : n.topology.id = some me) (hne : p.dst ≠ me) (hroute : n.route? p.dst = some link) :
    Traffic n (n.packetArrived p) n.counters.recordRelayed [] []
      [(link, { p with trace := p.trace ++ [me] })] := by
  have hfwd : n.forward me { p with trace := p.trace ++ [me] } = _ := forward_of_route hroute
  simp only [packetArrived, hid, if_neg hne, hfwd]
  exact .trans (.emit n _) (.trans (.count _ _) (.emit _ _))

/-- A packet that has nowhere to go is dropped, without being counted. -/
theorem packetArrived_lost {n : Node} {me : NodeId} {p : Packet} (hid : n.topology.id = some me)
    (hne : p.dst ≠ me) (hroute : n.route? p.dst = none) :
    Traffic n (n.packetArrived p) n.counters [] [] [] := by
  obtain ⟨hfwd, htraffic⟩ :=
    forward_of_no_route me (p := { p with trace := p.trace ++ [me] }) hroute
  simp only [packetArrived, hid, if_neg hne]
  split
  · next h => rw [h] at hfwd; cases hfwd
  · next h => rw [h] at htraffic; exact htraffic

/-- No packet originates from one that arrives. -/
theorem packetArrived_traffic (n : Node) (p : Packet) :
    ∃ c d q, Traffic n (n.packetArrived p) c [] d q := by
  cases hid : n.topology.id with
  | none =>
    simp only [packetArrived, hid]
    exact ⟨_, _, _, .emit n _⟩
  | some me =>
    by_cases hdst : p.dst = me
    · exact ⟨_, _, _, packetArrived_self (hdst ▸ hid)⟩
    · cases hroute : n.route? p.dst with
      | some link => exact ⟨_, _, _, packetArrived_other hid hdst hroute⟩
      | none => exact ⟨_, _, _, packetArrived_lost hid hdst hroute⟩

end Node

end RingOverlay
