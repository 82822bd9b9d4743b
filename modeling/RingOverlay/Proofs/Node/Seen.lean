import RingOverlay.Proofs.Node.Traffic

/-!
# Node — what is seen of what it does

An *observer* looks at effects one by one, and makes something of some of them: of a message that is
sent, of what is logged about a single packet.  `Shows f n n' xs` says that on the way from `n` to
`n'` the observer `f` sees `xs`, oldest first, and that what was done before stays done.  What is
seen adds up (`Shows.trans`), and so does what is not (`Shows.unseen`).

A packet that is handed on is either queued on the connection of its route and nothing else is done
(`forward_of_route`), or dropped after a warning (`forward_dropped`).
-/

namespace RingOverlay

namespace NodeEffect

/-- A message that is queued, and the connection it is queued on. -/
def sent? : NodeEffect → Option (LinkId × Message)
  | .sent link m => some (link, m)
  | _ => none

/-- An event that is logged for debugging, as only those about single packets are. -/
def debugged? : NodeEffect → Option NodeEvent
  | .logged e => if e.record.level = .debug then some e else none
  | _ => none

/-- A warning is not for debugging. -/
theorem debugged?_of_warn {e : NodeEvent} (h : e.record.level = .warn) :
    debugged? (.logged e) = none :=
  if_neg (by rw [h]; decide)

end NodeEffect

namespace Node

open NodeEffect

/-- From `n` to `n'`, the observer `f` sees `xs`, oldest first. -/
def Shows {β : Type} (f : NodeEffect → Option β) (n n' : Node) (xs : List β) : Prop :=
  ∃ es, n'.effects = es ++ n.effects ∧ es.reverse.filterMap f = xs

namespace Shows

variable {β : Type} {f : NodeEffect → Option β} {n n' n'' : Node} {xs ys : List β}

/-- Nothing but the effects of a node can be seen. -/
theorem of_same (h : n'.effects = n.effects) : Shows f n n' [] := ⟨[], h, rfl⟩

theorem refl (n : Node) : Shows f n n [] := of_same rfl

theorem trans (h : Shows f n n' xs) (h' : Shows f n' n'' ys) : Shows f n n'' (xs ++ ys) := by
  obtain ⟨es, he, rfl⟩ := h
  obtain ⟨es', he', rfl⟩ := h'
  refine ⟨es' ++ es, ?_, ?_⟩
  · rw [he', he, List.append_assoc]
  · rw [List.reverse_append, List.filterMap_append]

theorem emit (n : Node) (e : NodeEffect) : Shows f n (n.emit e) (f e).toList := by
  refine ⟨[e], rfl, ?_⟩
  cases h : f e <;> simp [h]

/-- What is seen is seen once and for all. -/
theorem unique (h : Shows f n n' xs) (h' : Shows f n n' ys) : xs = ys := by
  obtain ⟨es, he, rfl⟩ := h
  obtain ⟨es', he', rfl⟩ := h'
  rw [List.append_cancel_right (he.symm.trans he')]

/-- What is seen after something that is not seen is all that is seen. -/
theorem unseen (h : Shows f n n' []) (h' : Shows f n' n'' xs) : Shows f n n'' xs := h.trans h'

theorem emit_unseen (n : Node) {e : NodeEffect} (h : f e = none) : Shows f n (n.emit e) [] := by
  have hemit := emit (f := f) n e
  rwa [h] at hemit

theorem setState (n : Node) (s : NodeState) (note : String)
    (h : ∀ id, f (.logged (.state id s note)) = none) : Shows f n (n.setState s note) [] := by
  have hset : Shows f n { n with state := s } [] := of_same rfl
  exact hset.unseen (emit_unseen _ (h _))

end Shows

/-! ### Sending and handing on -/

/-- The registry is sent a message if it can be reached. -/
theorem sent_sendToRegistry (n : Node) (m : Message) :
    Shows sent? n (n.sendToRegistry m) (Option.map (·, m) n.registry?).toList := by
  unfold sendToRegistry
  split
  · next link h =>
    rw [h]
    exact .emit n _
  · next h =>
    rw [h]
    exact .emit_unseen n rfl

/-- A packet without a route is dropped, after a warning that says why. -/
theorem forward_dropped {n : Node} (me : NodeId) {p : Packet} (h : n.route? p.dst = none) :
    ∃ e : NodeEvent, e.record.level = .warn ∧
      n.forward me p =
        ((n.log e).log (.packet me .dropped p.src p.dst p.payload p.trace.length), false) := by
  simp only [forward]
  split
  · exact ⟨_, rfl, rfl⟩
  · next hop hhop =>
    have hlive : n.live? hop.entry.address = none := by
      simpa [route?, hhop] using h
    simp only [hlive]
    exact ⟨_, rfl, rfl⟩

/-- What is handed on is sent along its route, if it has one. -/
theorem sent_forward (n : Node) (me : NodeId) (p : Packet) :
    Shows sent? n (n.forward me p).1
      ((n.route? p.dst).map fun link => (link, .dataPacket p)).toList := by
  cases h : n.route? p.dst with
  | some link =>
    rw [forward_of_route h]
    exact .emit n _
  | none =>
    obtain ⟨e, -, he⟩ := forward_dropped me h
    rw [he]
    exact (Shows.emit_unseen n rfl).unseen (.emit_unseen _ rfl)

end Node

end RingOverlay
