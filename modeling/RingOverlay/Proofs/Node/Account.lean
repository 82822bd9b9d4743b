import RingOverlay.Proofs.Link.Cache
import RingOverlay.Proofs.Node.Setup
import RingOverlay.Proofs.Node.Traffic
import RingOverlay.Proofs.Traffic.Counters

/-!
# Node — its account of a run

The *account* of a node is all of it that bears on what it reports as sent: its identifier, the
identifiers of the overlay, and how many packets it has counted as sent.  `Account.handle` is what a
message makes of the account, and `Account.reports?` what the node reports of it in answer.

Most of what a node says meanwhile is *chatter*, which is nobody's order and reports nothing.
`Chats n acc n'` says that a handler that takes `n` to `n'` says nothing else, and leaves the
account `acc`.

* `answers_receive`: **what a node makes of a message, and reports in answer, is what its account
  says.**
* `answers_aside`: what is no order bears on no account.
-/

namespace RingOverlay

/-- Whether a message tells a node what to do, or what has become of its request. -/
def Message.isOrder : Message → Bool
  | registrationStatus .. | deregistrationStatus .. | nodeManifest .. | taskInitiate _
  | trafficSummaryRequest => true
  | _ => false

/-- Whether a message is one that nodes send of themselves, and that bears on nobody's account. -/
def Message.isChatter : Message → Bool
  | overlaySetupStatus .. | taskFinished .. | dataPacket _ => true
  | _ => false

/-- Whether a message ends a registration. -/
def Message.dismisses : Message → Bool
  | deregistrationStatus status _ => !decide (status < 0)
  | _ => false

/-- Whether a message is one that a node at `a` may send once it has joined. -/
def Message.isFrom (a : PeerAddress) : Message → Bool
  | overlaySetupStatus .. | taskFinished .. | dataPacket _ | trafficSummaryReport _ => true
  | nodeDeregisters b _ => b == a
  | _ => false

/-- What a message reports as sent, and in whose name. -/
def Message.reported? : Message → Option (NodeId × Nat)
  | trafficSummaryReport s => some (s.id, s.sent.toNat)
  | _ => none

/-- What is reported with an effect. -/
def NodeEffect.reported? : NodeEffect → Option (NodeId × Nat)
  | sent _ m => m.reported?
  | _ => none

/-- What bears on what a node reports as sent. -/
structure Account where
  id : Option NodeId
  nodeIds : List NodeId
  sent : Nat
  deriving DecidableEq

namespace Account

/-- The account of a node that has just joined. -/
def zero : Account := ⟨none, [], 0⟩

/-- The account after a task of `count` packets; nothing is sent if there is nobody to send to. -/
def originate (acc : Account) (count : Nat) : Account :=
  match acc.id with
  | some id =>
    if acc.nodeIds.filter (· != id) = [] then acc
    else { acc with sent := min (acc.sent + count) maxCount.toNat }
  | none => acc

/-- The account after a message. -/
def handle (acc : Account) : Message → Account
  | .registrationStatus status _ =>
    if status < 0 then acc
    else
      match NodeId.ofInt status.toInt with
      | .ok id => { acc with id := some id }
      | .error _ => acc
  | .deregistrationStatus status _ =>
    if status < 0 then acc else { acc with id := none, nodeIds := [] }
  | .nodeManifest _ nodeIds => { acc with nodeIds := nodeIds }
  | .taskInitiate count => acc.originate count.toNat
  | .trafficSummaryRequest => if acc.id.isSome then { acc with sent := 0 } else acc
  | _ => acc

/-- What is reported in answer to a message. -/
def reports? (acc : Account) : Message → Option (NodeId × Nat)
  | .trafficSummaryRequest => acc.id.map fun id => (id, acc.sent)
  | _ => none

variable {status : Int32}

theorem handle_refused (acc : Account) (h : status < 0) (info : String) :
    acc.handle (.registrationStatus status info) = acc := if_pos h

theorem handle_accepted (acc : Account) (h : ¬ status < 0) (info : String) :
    acc.handle (.registrationStatus status info) =
      match NodeId.ofInt status.toInt with
      | .ok id => { acc with id := some id }
      | .error _ => acc := if_neg h

theorem handle_retained (acc : Account) (h : status < 0) (info : String) :
    acc.handle (.deregistrationStatus status info) = acc := if_pos h

theorem handle_dismissed (acc : Account) (h : ¬ status < 0) (info : String) :
    acc.handle (.deregistrationStatus status info) = { acc with id := none, nodeIds := [] } :=
  if_neg h

theorem handle_request_of_none {acc : Account} (h : acc.id = none) :
    acc.handle .trafficSummaryRequest = acc ∧ acc.reports? .trafficSummaryRequest = none :=
  ⟨if_neg (by rw [h]; decide), congrArg (Option.map _) h⟩

theorem handle_request_of_some {acc : Account} {id : NodeId} (h : acc.id = some id) :
    acc.handle .trafficSummaryRequest = { acc with sent := 0 } ∧
      acc.reports? .trafficSummaryRequest = some (id, acc.sent) :=
  ⟨if_pos (Option.isSome_of_eq_some h), congrArg (Option.map _) h⟩

end Account

namespace Node

/-- The account of a node. -/
def account (n : Node) : Account := ⟨n.topology.id, n.topology.nodeIds, n.counters.sent.toNat⟩

/-- From `n` to `n'`, nothing but chatter is said, no connection closes, and the account becomes
`acc`. -/
structure Chats (n : Node) (acc : Account) (n' : Node) : Prop where
  account : n'.account = acc
  address : n'.address = n.address
  registry : ∀ link, n.registry? = some link → n'.registry? = some link
  ends : n.links.ends <+: n'.links.ends
  closed : n'.links.closed = n.links.closed
  said : ∃ es, n'.effects = es ++ n.effects ∧ ∀ link m, .sent link m ∈ es → m.isChatter = true

namespace Chats

variable {n n₁ n₂ : Node} {acc acc₁ : Account}

/-- Everything but the effects stays. -/
theorem of_same (haccount : n₁.account = acc) (haddress : n₁.address = n.address)
    (hregistry : n₁.registry? = n.registry?) (hlinks : n₁.links = n.links)
    (heffects : n₁.effects = n.effects) : Chats n acc n₁ :=
  ⟨haccount, haddress, fun _ h => hregistry.trans h, hlinks ▸ List.prefix_refl _,
    congrArg Links.closed hlinks, [], heffects, fun _ _ h => absurd h List.not_mem_nil⟩

theorem refl (n : Node) : Chats n n.account n := of_same rfl rfl rfl rfl rfl

theorem trans (h₁ : Chats n acc₁ n₁) (h₂ : Chats n₁ acc n₂) : Chats n acc n₂ := by
  obtain ⟨es₁, he₁, hs₁⟩ := h₁.said
  obtain ⟨es₂, he₂, hs₂⟩ := h₂.said
  refine ⟨h₂.account, h₂.address.trans h₁.address, fun l h => h₂.registry l (h₁.registry l h),
    h₁.ends.trans h₂.ends, h₂.closed.trans h₁.closed, es₂ ++ es₁, ?_, fun link m hm => ?_⟩
  · rw [he₂, he₁, List.append_assoc]
  · rcases List.mem_append.mp hm with hm | hm
    · exact hs₂ link m hm
    · exact hs₁ link m hm

theorem emit (n : Node) {e : NodeEffect} (he : ∀ link m, e = .sent link m → m.isChatter = true) :
    Chats n n.account (n.emit e) := by
  refine ⟨rfl, rfl, fun _ h => h, List.prefix_refl _, rfl, [e], rfl, fun link m hm => he link m ?_⟩
  exact (List.mem_singleton.mp hm).symm

theorem log (n : Node) (e : NodeEvent) : Chats n n.account (n.log e) :=
  emit n fun _ _ h => nomatch h

theorem notice (n : Node) (line : String) : Chats n n.account (n.notice line) := by
  unfold Node.notice
  split
  · exact emit n fun _ _ h => nomatch h
  · exact refl n

theorem setState (n : Node) (s : NodeState) (note : String) :
    Chats n n.account (n.setState s note) := by
  have hset : Chats n n.account { n with state := s } := of_same rfl rfl rfl rfl rfl
  exact hset.trans (log _ _)

theorem sent (n : Node) (link : LinkId) {m : Message} (hm : m.isChatter = true) :
    Chats n n.account (n.emit (.sent link m)) :=
  emit n fun _ _ h => by cases h; exact hm

theorem sendToRegistry (n : Node) {m : Message} (hm : m.isChatter = true) :
    Chats n n.account (n.sendToRegistry m) := by
  unfold Node.sendToRegistry
  split
  · exact sent n _ hm
  · exact log n _

end Chats

/-! ### Manifests -/

/-- A dial to somebody else leaves the connection to the registry as it is. -/
theorem registry?_dial {n : Node} {a : PeerAddress} {link : LinkId} (ha : n.config.registry ≠ a)
    (h : n.registry? = some link) : registry? (n.dial a) = some link := by
  obtain ⟨hcached, hopen⟩ := Option.filter_eq_some_iff.mp h
  obtain ⟨hlt, hclosed⟩ := Links.isOpen_iff.mp hopen
  refine Option.filter_eq_some_iff.mpr ⟨?_, Links.isOpen_iff.mpr ⟨?_, hclosed⟩⟩
  · exact (Cache.get?_put_of_ne _ _ _ ha).trans hcached
  · exact Nat.lt_of_lt_of_le hlt (List.prefix_append n.links.ends [.dialed a]).length_le

theorem chats_dialEach (reaches : PeerAddress → Bool) (as : List PeerAddress) (n : Node)
    (h : n.config.registry ∉ as) : Chats n n.account (dialEach reaches as n).1 := by
  induction as generalizing n with
  | nil => exact .refl n
  | cons a as ih =>
    obtain ⟨hne, htail⟩ := List.ne_and_not_mem_of_not_mem_cons h
    unfold dialEach
    split
    · have hdial : Chats n n.account (n.dial a) :=
        ⟨rfl, rfl, fun _ => registry?_dial hne, List.prefix_append _ _, rfl, [], rfl,
          fun _ _ h => absurd h List.not_mem_nil⟩
      exact hdial.trans (ih (n.dial a) htail)
    · exact (Chats.log n _).trans (ih _ htail)

/-- A node that holds its registry dials it no more. -/
theorem chats_manifest {n : Node} (h : n.registry?.isSome) (reaches : PeerAddress → Bool)
    (draws : Draws) (link : LinkId) (far : Endpoint) (table : FingerTable)
    (nodeIds : List NodeId) :
    Chats n { n.account with nodeIds := nodeIds }
      (n.handle reaches draws link far (.nodeManifest table nodeIds)) := by
  let learned := n.learn table nodeIds
  let dials := dialEach reaches (n.missing table) learned
  let outcome := setupOutcome n.topology.id (fingerAddresses table).length dials.2
  let connected := dials.1.connect outcome
  have hkept : Chats n { n.account with nodeIds := nodeIds }
      { n with topology := ⟨n.topology.id, table, nodeIds⟩ } := .of_same rfl rfl rfl rfl rfl
  have hlearned : Chats n { n.account with nodeIds := nodeIds } learned :=
    hkept.trans (.setState _ _ _)
  have hmissing : learned.config.registry ∉ n.missing table := fun hmem => by
    have hnone := (List.mem_filter.mp hmem).2
    change Option.isNone n.registry? = true at hnone
    rw [Option.isNone_iff_eq_none.mp hnone] at h
    cases h
  have hdials : Chats learned learned.account dials.1 :=
    chats_dialEach reaches (n.missing table) learned hmissing
  have hconnected : Chats dials.1 dials.1.account connected := .setState _ _ _
  have htold := Chats.sendToRegistry connected (m := .overlaySetupStatus outcome.1 outcome.2) rfl
  have hlast := Chats.setState (connected.sendToRegistry (.overlaySetupStatus outcome.1 outcome.2))
    (.setupReported (outcome.1 != failureStatus)) "setup reported"
  rw [htold.account, hconnected.account, hdials.account, hlearned.account] at hlast
  rw [handle_manifest]
  exact hlearned.trans (hdials.trans (hconnected.trans (htold.trans hlast)))

/-! ### Packets -/

theorem chats_forward (n : Node) (me : NodeId) (p : Packet) :
    Chats n n.account (n.forward me p).1 := by
  unfold forward
  split
  · exact (Chats.log n _).trans (.log _ _)
  · split
    · exact (Chats.log n _).trans (.log _ _)
    · exact .sent n _ rfl

theorem chats_packetArrived (n : Node) (p : Packet) : Chats n n.account (n.packetArrived p) := by
  unfold packetArrived
  split
  · exact .log n _
  · next me hme =>
    split
    · have hcount : Chats n n.account { n with counters := n.counters.recordReceived p.payload } :=
        .of_same rfl rfl rfl rfl rfl
      exact hcount.trans (.log _ _)
    · have hforward := chats_forward n me { p with trace := p.trace ++ [me] }
      dsimp only
      split
      · next n₁ heq =>
        rw [heq] at hforward
        have hcount : Chats n₁ n₁.account { n₁ with counters := n₁.counters.recordRelayed } :=
          .of_same rfl rfl rfl rfl rfl
        rw [← hforward.account]
        exact hforward.trans (hcount.trans (.log _ _))
      · next n₁ heq =>
        rw [heq] at hforward
        exact hforward

/-! ### Tasks -/

theorem length_drafts {me : NodeId} {others : List NodeId} (h : others ≠ []) (count : Nat)
    (draws : Draws) : (drafts me others count draws).length = count := by
  induction count generalizing draws with
  | zero => rfl
  | succ count ih =>
    have hlt : (draws.below others.length).1 < others.length := by
      have hpos := List.length_pos_iff.mpr h
      have hmod := Int.emod_lt_of_pos draws.draw.1 (Int.ofNat_lt.mpr hpos)
      unfold Draws.below
      omega
    rw [drafts, List.getElem?_eq_getElem hlt]
    exact congrArg (· + 1) (ih _)

theorem chats_ship {n : Node} (h : n.account.sent ≤ maxCount.toNat) (p : Packet) :
    Chats n { n.account with sent := min (n.account.sent + 1) maxCount.toNat } (n.ship p) := by
  have hcount : Chats n { n.account with sent := min (n.account.sent + 1) maxCount.toNat }
      { n with counters := n.counters.recordSent p.payload } := by
    refine .of_same ?_ rfl rfl rfl rfl
    have hbump := Counters.toNat_bump_min h
    exact congrArg (Account.mk n.topology.id n.topology.nodeIds) hbump
  have hlog := Chats.log { n with counters := n.counters.recordSent p.payload }
    (.packet p.src .originated p.src p.dst p.payload 0)
  have hforward := chats_forward ({ n with counters := n.counters.recordSent p.payload }.log
    (.packet p.src .originated p.src p.dst p.payload 0)) p.src p
  rw [hlog.account, hcount.account] at hforward
  exact hcount.trans (hlog.trans hforward)

theorem chats_foldl_ship (ps : List Packet) {n : Node} (h : n.account.sent ≤ maxCount.toNat) :
    Chats n { n.account with sent := min (n.account.sent + ps.length) maxCount.toNat }
      (ps.foldl ship n) := by
  induction ps generalizing n with
  | nil =>
    have hsame : { n.account with sent := min (n.account.sent + 0) maxCount.toNat } = n.account :=
      congrArg (Account.mk n.account.id n.account.nodeIds) (Nat.min_eq_left h)
    rw [List.length_nil, hsame]
    exact .refl n
  | cons p ps ih =>
    have hship := chats_ship h p
    have hrest := ih (n := n.ship p) (by rw [hship.account]; exact Nat.min_le_right _ _)
    rw [hship.account] at hrest
    have hadd : min (min (n.account.sent + 1) maxCount.toNat + ps.length) maxCount.toNat =
        min (n.account.sent + (p :: ps).length) maxCount.toNat := by
      rw [List.length_cons]
      omega
    rw [hadd] at hrest
    exact hship.trans hrest

/-- A task is done in full, if there is anybody to send to. -/
theorem chats_initiateTask {n : Node} (h : n.account.sent ≤ maxCount.toNat) (draws : Draws)
    (count : UInt32) :
    Chats n (n.account.originate count.toNat) (n.initiateTask draws count) := by
  cases hid : n.topology.id with
  | none =>
    have hidle : n.account.originate count.toNat = n.account := by
      simp only [Account.originate, account, hid]
    rw [hidle, initiateTask, hid]
    exact .log n _
  | some id =>
    have hreport : ∀ n₁ : Node, Chats n₁ n₁.account ((n₁.log (.state (some id) n₁.state
        s!"finished sending {count.toNat} packets")).sendToRegistry
          (.taskFinished n₁.address id)) :=
      fun n₁ => (Chats.log n₁ _).trans (.sendToRegistry _ rfl)
    by_cases hothers : n.topology.nodeIds.filter (· != id) = []
    · have hidle : n.account.originate count.toNat = n.account := by
        simp only [Account.originate, account, hid, if_pos hothers]
      rw [hidle]
      simp only [initiateTask, hid, if_pos hothers]
      exact hreport n
    · have hbusy : n.account.originate count.toNat =
          { n.account with sent := min (n.account.sent + count.toNat) maxCount.toNat } := by
        simp only [Account.originate, account, hid, if_neg hothers]
      have hships := chats_foldl_ship
        (drafts id (n.topology.nodeIds.filter (· != id)) count.toNat draws) h
      rw [length_drafts hothers, ← hbusy] at hships
      simp only [initiateTask, hid, if_neg hothers, originate_eq]
      have hlast := hreport ((drafts id (n.topology.nodeIds.filter (· != id)) count.toNat
        draws).foldl ship n)
      rw [hships.account] at hlast
      exact hships.trans hlast

/-! ### Answers to requests -/

theorem chats_registrationStatus (n : Node) (status : Int32) (info : String) :
    Chats n (n.account.handle (.registrationStatus status info))
      (n.registrationStatus status info) := by
  by_cases hneg : status < 0
  · rw [registrationStatus, if_pos hneg, Account.handle_refused _ hneg]
    have hnotice := Chats.notice n info
    have hlog := Chats.log (n.notice info) (.state none .unregistered info)
    rw [hnotice.account] at hlog
    exact hnotice.trans hlog
  · rw [registrationStatus, if_neg hneg, Account.handle_accepted _ hneg]
    cases NodeId.ofInt status.toInt with
    | error e => exact .log n _
    | ok id =>
      let n₁ : Node := { n with topology := { n.topology with id := some id } }
      have hset : Chats n { n.account with id := some id } n₁ := .of_same rfl rfl rfl rfl rfl
      have hnotice := Chats.notice n₁ info
      have hlast := Chats.setState (n₁.notice info) .registered info
      rw [hnotice.account, hset.account] at hlast
      exact hset.trans (hnotice.trans hlast)

/-! ### Every message -/

/-- A node holds its connection to the registry, or has let go of it for good. -/
structure Seated (link : LinkId) (n : Node) : Prop where
  made : link < n.links.ends.length
  registry : n.links.isOpen link = true → n.registry? = some link
  counted : n.account.sent ≤ maxCount.toNat

/-- From `n` to `n'`, the account becomes `acc` and `reports` are reported over `link`, which closes
unless it stays open as `holds` says. -/
structure Answers (n : Node) (link : LinkId) (acc : Account) (reports : List (NodeId × Nat))
    (holds : Bool) (n' : Node) : Prop where
  account : n'.account = acc
  address : n'.address = n.address
  seated : n'.Seated link
  ends : n.links.ends <+: n'.links.ends
  holds : n'.links.isOpen link = holds
  reports : n'.effects.reverse.filterMap NodeEffect.reported? = reports
  said : ∀ l m, .sent l m ∈ n'.effects → m.isFrom n.address = true
  reportLink : ∀ l m, .sent l m ∈ n'.effects → m.reported? ≠ none → l = link

variable {n n' : Node} {link : LinkId} {m : Message} {acc : Account}

theorem reported?_of_isChatter (h : m.isChatter = true) : m.reported? = none := by
  cases m with
  | trafficSummaryReport s => cases h
  | _ => rfl

theorem isFrom_of_isChatter (h : m.isChatter = true) (a : PeerAddress) : m.isFrom a = true := by
  cases m with
  | overlaySetupStatus | taskFinished | dataPacket => rfl
  | _ => cases h

theorem isOrder_of_isFrom {a : PeerAddress} (h : m.isFrom a = true) : m.isOrder = false := by
  cases m with
  | registrationStatus | deregistrationStatus | nodeManifest | taskInitiate
  | trafficSummaryRequest => cases h
  | _ => rfl

theorem isOpen_eq_of_ends (hmade : link < n.links.ends.length)
    (hends : n.links.ends <+: n'.links.ends) (hclosed : n'.links.closed = n.links.closed) :
    n'.links.isOpen link = n.links.isOpen link := by
  have hmade' := Nat.lt_of_lt_of_le hmade hends.length_le
  rw [Links.isOpen, Links.isOpen, hclosed, decide_eq_true hmade, decide_eq_true hmade']

theorem Seated.exists_far (h : n.Seated link) : ∃ far, n.links.end? link = some far :=
  ⟨_, List.getElem?_eq_getElem h.made⟩

/-- Chatter answers with nothing. -/
theorem Chats.answers (h : Chats n acc n') (hn : n.Seated link) (hsilent : n.effects = [])
    (hcounted : acc.sent ≤ maxCount.toNat) :
    Answers n link acc [] (n.links.isOpen link) n' := by
  obtain ⟨es, hes, hsaid⟩ := h.said
  rw [hsilent, List.append_nil] at hes
  have hopen := isOpen_eq_of_ends hn.made h.ends h.closed
  refine ⟨h.account, h.address,
    ⟨Nat.lt_of_lt_of_le hn.made h.ends.length_le, fun ho => ?_, ?_⟩, h.ends, hopen, ?_,
    fun l m hm => ?_, fun l m hm hreport => ?_⟩
  · exact h.registry link (hn.registry (hopen ▸ ho))
  · rwa [h.account]
  · rw [hes]
    refine List.filterMap_eq_nil_iff.mpr fun e he => ?_
    cases e with
    | sent l m => exact reported?_of_isChatter (hsaid l m (List.mem_reverse.mp he))
    | logged _ | printed _ => rfl
  · exact isFrom_of_isChatter (hsaid l m (hes ▸ hm)) _
  · exact absurd (reported?_of_isChatter (hsaid l m (hes ▸ hm))) hreport

theorem originate_sent_le (h : acc.sent ≤ maxCount.toNat) (count : Nat) :
    (acc.originate count).sent ≤ maxCount.toNat := by
  unfold Account.originate
  split
  · split
    · exact h
    · exact Nat.min_le_right _ _
  · exact h

/-- What is no order leads to chatter alone. -/
theorem chats_handle_of_not_order (h : m.isOrder = false) (n : Node) (reaches : PeerAddress → Bool)
    (draws : Draws) (link : LinkId) (far : Endpoint) :
    Chats n n.account (n.handle reaches draws link far m) := by
  cases m with
  | dataPacket p => exact chats_packetArrived n p
  | nodeRegisters | nodeDeregisters | overlaySetupStatus | taskFinished | trafficSummaryReport =>
    exact .log n _
  | registrationStatus | deregistrationStatus | nodeManifest | taskInitiate
  | trafficSummaryRequest => cases h

/-- **What is no order bears on no account**, whoever sends it. -/
theorem answers_aside (h : m.isOrder = false) (hn : n.Seated link) (hsilent : n.effects = [])
    (reaches : PeerAddress → Bool) (draws : Draws) :
    Answers n link n.account [] (n.links.isOpen link) (n.receive reaches draws link m) := by
  obtain ⟨far, hfar⟩ := hn.exists_far
  rw [receive, hfar]
  exact (chats_handle_of_not_order h n reaches draws link _).answers hn hsilent hn.counted

/-- A node that asks to leave goes on as before. -/
theorem answers_exit (hn : n.Seated link) (hsilent : n.effects = []) :
    Answers n link n.account [] (n.links.isOpen link) n.exit.1 := by
  have hsame : Answers n link n.account [] (n.links.isOpen link) n :=
    (Chats.refl n).answers hn hsilent hn.counted
  unfold exit
  split
  · exact hsame
  · split
    · exact hsame
    · next id _ other _ =>
      refine ⟨rfl, rfl, ⟨hn.made, hn.registry, hn.counted⟩, List.prefix_refl _, rfl, ?_, ?_, ?_⟩
      · change List.filterMap _ (NodeEffect.logged _ :: .sent other _ :: n.effects).reverse = []
        rw [hsilent]
        rfl
      · intro l m hm
        rcases List.mem_cons.mp hm with h | h
        · cases h
        · rcases List.mem_cons.mp h with h | h
          · cases h
            exact beq_self_eq_true n.address
          · rw [hsilent] at h
            cases h
      · intro l m hm hreport
        rcases List.mem_cons.mp hm with h | h
        · cases h
        · rcases List.mem_cons.mp h with h | h
          · cases h
            exact absurd rfl hreport
          · rw [hsilent] at h
            cases h

/-- A notice is printed or not, and changes nothing else. -/
theorem notice_eq (n : Node) (line : String) :
    ∃ es, n.notice line = { n with effects := es ++ n.effects } ∧
      ∀ link m, .sent link m ∉ es := by
  unfold notice
  split
  · exact ⟨[.printed line], rfl, fun _ _ h => nomatch List.mem_singleton.mp h⟩
  · exact ⟨[], rfl, fun _ _ h => absurd h List.not_mem_nil⟩

/-- A node whose registration has ended lets go of its registry, and says nothing. -/
theorem answers_dismissed (hn : n.Seated link) (hsilent : n.effects = [])
    (hopen : n.links.isOpen link = true) {status : Int32} (hstatus : ¬ status < 0)
    (info : String) :
    Answers n link { n.account with id := none, nodeIds := [] } [] false
      (n.deregistrationStatus status info) := by
  obtain ⟨es, hnotice, hquiet⟩ := notice_eq n info
  have hcached : n.cache.get? n.config.registry = some link :=
    (Option.filter_eq_some_iff.mp (hn.registry hopen)).1
  have hclosed := Links.isOpen_close_self n.links link
  have hends : (n.links.close link).ends = n.links.ends := Links.ends_close link
  let n' : Node := { n with
    effects := .logged (.state none .unregistered info) :: (es ++ n.effects)
    topology := .none
    cache := n.cache.erase n.config.registry
    links := n.links.close link
    state := .unregistered }
  have hleft : n.deregistrationStatus status info = n' := by
    simp only [deregistrationStatus, if_neg hstatus, hnotice, leaveRegistry, hcached]
    rfl
  have hsaid : ∀ l m, .sent l m ∉ n'.effects := by
    intro l m hm
    rcases List.mem_cons.mp hm with h | h
    · cases h
    · rw [hsilent, List.append_nil] at h
      exact hquiet l m h
  rw [hleft]
  refine ⟨rfl, rfl, ⟨?_, fun h => ?_, hn.counted⟩, ?_, hclosed, ?_, fun l m hm => ?_,
    fun l m hm => ?_⟩
  · exact Nat.lt_of_lt_of_eq hn.made (congrArg List.length hends.symm)
  · exact absurd (hclosed.symm.trans h) Bool.false_ne_true
  · exact hends ▸ List.prefix_refl (n.links.close link).ends
  · refine List.filterMap_eq_nil_iff.mpr fun e he => ?_
    cases e with
    | sent l m => exact absurd (List.mem_reverse.mp he) (hsaid l m)
    | logged _ | printed _ => rfl
  · exact absurd hm (hsaid l m)
  · exact absurd hm (hsaid l m)

/-- A summary that is asked for goes out, and the count starts over. -/
theorem answers_summarise {id : NodeId} (hid : n.topology.id = some id) (hn : n.Seated link)
    (hsilent : n.effects = []) (hopen : n.links.isOpen link = true) :
    Answers n link { n.account with sent := 0 } [(id, n.account.sent)] true
      (n.summarise link) := by
  let n' : Node := { n with
    effects := [.sent link (.trafficSummaryReport (n.counters.summary id))]
    counters := .zero }
  have hsent : n.summarise link = n' := by
    simp only [summarise, hid, Counters.take, hopen, if_true]
    rw [emit, hsilent]
  rw [hsent]
  refine ⟨rfl, rfl, ⟨hn.made, hn.registry, Nat.zero_le _⟩, List.prefix_refl _, hopen, rfl, ?_, ?_⟩
  · intro l m hm
    cases List.mem_singleton.mp hm
    rfl
  · intro l m hm _
    cases List.mem_singleton.mp hm
    rfl

/-- **What a node makes of a message that it takes from its registry.** -/
theorem answers_receive (hn : n.Seated link) (hsilent : n.effects = [])
    (hopen : n.links.isOpen link = true) (reaches : PeerAddress → Bool) (draws : Draws)
    (m : Message) :
    Answers n link (n.account.handle m) (n.account.reports? m).toList (!m.dismisses)
      (n.receive reaches draws link m) := by
  obtain ⟨far, hfar⟩ := hn.exists_far
  have hchats : ∀ {acc : Account} {n' : Node}, Chats n acc n' → acc.sent ≤ maxCount.toNat →
      Answers n link acc [] true n' :=
    fun h hcounted => hopen ▸ h.answers hn hsilent hcounted
  rw [receive, hfar]
  cases m with
  | registrationStatus status info =>
    refine hchats (chats_registrationStatus n status info) ?_
    by_cases hneg : status < 0
    · rw [Account.handle_refused _ hneg]
      exact hn.counted
    · rw [Account.handle_accepted _ hneg]
      cases NodeId.ofInt status.toInt with
      | error e => exact hn.counted
      | ok id => exact hn.counted
  | deregistrationStatus status info =>
    by_cases hneg : status < 0
    · have hsame : n.deregistrationStatus status info =
          (n.notice info).log (.state (n.notice info).topology.id (n.notice info).state info) := by
        simp only [deregistrationStatus, if_pos hneg]
      have hnotice := Chats.notice n info
      have hlog := Chats.log (n.notice info)
        (.state (n.notice info).topology.id (n.notice info).state info)
      rw [hnotice.account] at hlog
      have hstays : (!(Message.deregistrationStatus status info).dismisses) = true := by
        rw [Message.dismisses, decide_eq_true hneg]
        rfl
      change Answers n link _ _ _ (n.deregistrationStatus status info)
      rw [hsame, Account.handle_retained _ hneg, hstays]
      exact hchats (hnotice.trans hlog) hn.counted
    · have hleaves : (!(Message.deregistrationStatus status info).dismisses) = false := by
        rw [Message.dismisses, decide_eq_false hneg]
        rfl
      rw [Account.handle_dismissed _ hneg, hleaves]
      exact answers_dismissed hn hsilent hopen hneg info
  | nodeManifest table nodeIds =>
    have hlive : n.registry?.isSome := Option.isSome_of_eq_some (hn.registry hopen)
    exact hchats (chats_manifest hlive reaches draws link far table nodeIds) hn.counted
  | taskInitiate count =>
    exact hchats (chats_initiateTask hn.counted draws count)
      (originate_sent_le hn.counted count.toNat)
  | trafficSummaryRequest =>
    cases hid : n.topology.id with
    | none =>
      have hacc : n.account.id = none := hid
      obtain ⟨hsame, hnone⟩ := Account.handle_request_of_none hacc
      change Answers n link _ _ _ (n.summarise link)
      rw [hsame, hnone, summarise, hid]
      exact hchats (.log n _) hn.counted
    | some id =>
      have hacc : n.account.id = some id := hid
      obtain ⟨hreset, hreport⟩ := Account.handle_request_of_some hacc
      rw [hreset, hreport]
      exact answers_summarise hid hn hsilent hopen
  | _ => exact hchats (chats_handle_of_not_order rfl n reaches draws link _) hn.counted

end Node

end RingOverlay
