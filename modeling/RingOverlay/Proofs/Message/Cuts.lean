import RingOverlay.Proofs.Message.Fields

/-!
# Message — payloads that are cut short or run on

A reader takes bytes off the front and does not look at what it leaves.  So bytes that follow are
left over where it finds a value, and do not matter where it refuses one; only where it runs out of
bytes may they make a difference.  Such a reader *streams*.  Reading one value after the other
streams if each of the readers does (`Streams.bind`), which takes loops over counts that the payload
itself announces along, and so every message is read by a reader that streams (`streams_message`).

A payload has to be taken up whole, and it is only then that bytes are found to be left over.

* `decode_append`: **what is decoded from a payload says what is decoded from a longer one**, unless
  the payload ended too early.
-/

namespace RingOverlay

namespace Decoder

open Bytes

variable {α β : Type} {d : Decoder α} {f : α → Decoder β} {bs more : List UInt8} {a : α}
  {e : DecodeError}

/-- A reader to which it makes no difference what follows the bytes that it takes, and that does not
ask whether any do. -/
structure Streams (d : Decoder α) : Prop where
  found : ∀ {bs rest : List UInt8} {a : α}, d bs = .ok (a, rest) →
    ∀ more, d (bs ++ more) = .ok (a, rest ++ more)
  refused : ∀ {bs : List UInt8} {e : DecodeError}, d bs = .error e → e ≠ .truncated →
    (∀ n, e ≠ .trailingBytes n) ∧ ∀ more, d (bs ++ more) = .error e

/-! ### One reader after the other -/

theorem streams_pure (a : α) : Streams (pure a : Decoder α) where
  found h more := by
    obtain ⟨rfl, rfl⟩ := pure_eq_ok.mp h
    rfl
  refused h := nomatch h

theorem streams_throw (h : ∀ n, e ≠ .trailingBytes n) : Streams (throw e : Decoder α) where
  found hok := absurd hok throw_ne_ok
  refused herror _ := by
    cases herror
    exact ⟨h, fun _ => rfl⟩

theorem bind_eq_error : (d >>= f) bs = .error e ↔
    d bs = .error e ∨ ∃ a mid, d bs = .ok (a, mid) ∧ f a mid = .error e := by
  change (d bs >>= fun x => f x.1 x.2) = _ ↔ _
  cases d bs with
  | error e' => simp [bind, Except.bind]
  | ok x => simp [bind, Except.bind, Prod.ext_iff, and_assoc]

theorem Streams.bind (hd : Streams d) (hf : ∀ a, Streams (f a)) : Streams (d >>= f) where
  found h more := by
    obtain ⟨a, mid, ha, hb⟩ := bind_eq_ok.mp h
    exact bind_eq_ok.mpr ⟨a, mid ++ more, hd.found ha more, (hf a).found hb more⟩
  refused h hwhole := by
    rcases bind_eq_error.mp h with hfirst | ⟨a, mid, ha, hsecond⟩
    · obtain ⟨hinside, hsame⟩ := hd.refused hfirst hwhole
      exact ⟨hinside, fun more => bind_eq_error.mpr (.inl (hsame more))⟩
    · obtain ⟨hinside, hsame⟩ := (hf a).refused hsecond hwhole
      exact ⟨hinside, fun more =>
        bind_eq_error.mpr (.inr ⟨a, mid ++ more, hd.found ha more, hsame more⟩)⟩

theorem streams_guard {p : Prop} [Decidable p] (hd : Streams d) (h : ∀ n, e ≠ .trailingBytes n) :
    Streams (if p then d else throw e) := by
  split
  · exact hd
  · exact streams_throw h

/-- A read takes the bytes that it needs, and runs out if there are not as many. -/
theorem streams_ofRead {r : Read α}
    (h : ∀ {bs rest : List UInt8} {a : α}, r bs = (some a, rest) →
      ∀ more, r (bs ++ more) = (some a, rest ++ more)) : Streams (ofRead r) where
  found hok more := ofRead_eq_ok.mpr (h (ofRead_eq_ok.mp hok) more)
  refused {bs e} herror hwhole := by
    unfold ofRead at herror
    split at herror
    · cases herror
    · cases herror
      exact absurd rfl hwhole

theorem streams_take (n : Nat) : Streams (ofRead (.take n)) :=
  streams_ofRead fun h more => by
    obtain ⟨hlen, rfl⟩ := Read.take_eq_some_iff.mp h
    exact Read.take_eq_some_iff.mpr ⟨hlen, List.append_assoc ..⟩

theorem streams_map (n : Nat) (f : List UInt8 → α) : Streams (ofRead ((Read.take n).map f)) :=
  streams_ofRead fun h more => by
    obtain ⟨front, hlen, rfl, rfl⟩ := Read.map_eq_some_iff.mp h
    exact Read.map_eq_some_iff.mpr ⟨front, hlen, rfl, List.append_assoc ..⟩

/-! ### Fields -/

theorem streams_i32 : Streams i32 := streams_map 4 toInt32

theorem streams_i64 : Streams i64 := streams_map 8 toInt64

theorem streams_length : Streams length :=
  streams_i32.bind fun _ => streams_guard (streams_pure _) nofun

theorem streams_count : Streams count :=
  streams_i32.bind fun _ => streams_guard (streams_pure _) nofun

theorem streams_id : Streams id :=
  streams_i32.bind fun n => by
    cases NodeId.ofInt n.toInt with
    | ok id => exact streams_pure id
    | error _ => exact streams_throw nofun

theorem streams_times (hd : Streams d) (n : Nat) : Streams (times d n) := by
  induction n with
  | zero => exact streams_pure []
  | succ n ih => exact hd.bind fun a => ih.bind fun as => streams_pure (a :: as)

theorem streams_ids : Streams ids := streams_length.bind (streams_times streams_id)

theorem streams_string : Streams string :=
  streams_length.bind fun n => (streams_take n).bind fun bytes => by
    cases String.fromUTF8? bytes.toByteArray with
    | some s => exact streams_pure s
    | none => exact streams_throw nofun

theorem streams_address : Streams address :=
  streams_string.bind fun _ => streams_i32.bind fun _ => streams_guard (streams_pure _) nofun

/-- An entry that repeats an identifier is refused as soon as it has been read. -/
theorem streams_entries (n : Nat) (t : FingerTable) : Streams (entries n t) := by
  induction n generalizing t with
  | zero => exact streams_pure t
  | succ n ih =>
    refine streams_id.bind fun id => streams_address.bind fun address => ?_
    cases t.push ⟨id, address⟩ with
    | ok t' => exact ih t'
    | error _ => exact streams_throw nofun

/-! ### Messages -/

theorem streams_fields (k : Kind) : Streams (fields k) := by
  cases k with
  | nodeRegisters => exact streams_address.bind fun _ => streams_pure _
  | registrationStatus | deregistrationStatus | overlaySetupStatus =>
    exact streams_i32.bind fun _ => streams_string.bind fun _ => streams_pure _
  | nodeDeregisters | taskFinished =>
    exact streams_address.bind fun _ => streams_id.bind fun _ => streams_pure _
  | nodeManifest =>
    exact streams_length.bind fun n => (streams_entries n .empty).bind fun _ =>
      streams_ids.bind fun _ => streams_pure _
  | taskInitiate => exact streams_count.bind fun _ => streams_pure _
  | dataPacket =>
    exact streams_id.bind fun _ => streams_id.bind fun _ => streams_i32.bind fun _ =>
      streams_ids.bind fun _ => streams_pure _
  | trafficSummaryRequest => exact streams_pure _
  | trafficSummaryReport =>
    exact streams_id.bind fun _ => streams_count.bind fun _ => streams_count.bind fun _ =>
      streams_i64.bind fun _ => streams_count.bind fun _ => streams_i64.bind fun _ =>
        streams_pure _

theorem streams_message : Streams message :=
  streams_i32.bind fun tag => by
    cases Kind.ofTag? tag with
    | some k => exact streams_fields k
    | none => exact streams_throw nofun

/-! ### Whole payloads -/

/-- A payload is refused where its value is, or for what is left over. -/
theorem run_eq_error : d.run bs = .error e ↔
    d bs = .error e ∨
      ∃ a rest, d bs = .ok (a, rest) ∧ rest ≠ [] ∧ e = .trailingBytes rest.length := by
  unfold run
  cases d bs with
  | error e' => simp
  | ok x =>
    obtain ⟨b, left⟩ := x
    cases left with
    | nil => simp
    | cons y ys =>
      constructor
      · rintro ⟨⟩
        exact .inr ⟨b, y :: ys, rfl, List.cons_ne_nil y ys, rfl⟩
      · rintro (⟨⟨⟩⟩ | ⟨_, _, ⟨⟩, -, rfl⟩)
        rfl

/-- Where a value is found, whatever follows it is left over. -/
theorem Streams.run_of_found (hd : Streams d) {rest : List UInt8} (h : d bs = .ok (a, rest))
    (hmore : more ≠ []) :
    d.run (bs ++ more) = .error (.trailingBytes (rest.length + more.length)) :=
  run_eq_error.mpr (.inr ⟨a, rest ++ more, hd.found h more,
    fun hnil => hmore (List.append_eq_nil_iff.mp hnil).2, by rw [List.length_append]⟩)

theorem Streams.run_of_ok (hd : Streams d) (h : d.run bs = .ok a) (hmore : more ≠ []) :
    d.run (bs ++ more) = .error (.trailingBytes more.length) := by
  have hlonger := hd.run_of_found (run_eq_ok.mp h) hmore
  rwa [List.length_nil, Nat.zero_add] at hlonger

theorem Streams.run_of_trailing (hd : Streams d) {n : Nat}
    (h : d.run bs = .error (.trailingBytes n)) (hmore : more ≠ []) :
    d.run (bs ++ more) = .error (.trailingBytes (n + more.length)) := by
  rcases run_eq_error.mp h with hrefused | ⟨a, rest, hfound, -, hn⟩
  · exact absurd rfl ((hd.refused hrefused nofun).1 n)
  · obtain rfl := DecodeError.trailingBytes.inj hn
    exact hd.run_of_found hfound hmore

theorem Streams.run_of_refused (hd : Streams d) (h : d.run bs = .error e) (hwhole : e ≠ .truncated)
    (hinside : ∀ n, e ≠ .trailingBytes n) (more : List UInt8) : d.run (bs ++ more) = .error e := by
  rcases run_eq_error.mp h with hrefused | ⟨a, rest, -, -, hn⟩
  · exact run_eq_error.mpr (.inl ((hd.refused hrefused hwhole).2 more))
  · exact absurd hn (hinside _)

/-- What is left out of a payload that is read was missed, and nothing else was amiss before. -/
theorem Streams.run_of_longer (hd : Streams d) (h : d.run (bs ++ more) = .ok a)
    (hmore : more ≠ []) : d.run bs = .error .truncated := by
  cases hcut : d.run bs with
  | ok b => cases (hd.run_of_ok hcut hmore).symm.trans h
  | error e =>
    by_cases hwhole : e = .truncated
    · rw [hwhole]
    · by_cases hinside : ∀ n, e ≠ .trailingBytes n
      · cases (hd.run_of_refused hcut hwhole hinside more).symm.trans h
      · obtain ⟨n, hn⟩ := not_forall.mp hinside
        rw [Decidable.not_not.mp hn] at hcut
        cases (hd.run_of_trailing hcut hmore).symm.trans h

end Decoder

namespace Message

open Decoder

/-- **Cutting and extending a payload.**  A payload that is decoded was truncated wherever it is
cut, and has trailing bytes however it is extended.  Trailing bytes add up, and whatever else is
wrong with a payload, other than that it ended too early, is wrong with every longer one as well. -/
theorem decode_append (p : List UInt8) {s : List UInt8} (hs : s ≠ []) :
    (∀ m, decode (p ++ s) = .ok m → decode p = .error .truncated) ∧
    (∀ m, decode p = .ok m → decode (p ++ s) = .error (.trailingBytes s.length)) ∧
    (∀ n, decode p = .error (.trailingBytes n) →
      decode (p ++ s) = .error (.trailingBytes (n + s.length))) ∧
    ∀ e, decode p = .error e → e ≠ .truncated → (∀ n, e ≠ .trailingBytes n) →
      decode (p ++ s) = .error e := by
  have hd := streams_message
  exact ⟨fun _ h => hd.run_of_longer h hs, fun _ h => hd.run_of_ok h hs,
    fun _ h => hd.run_of_trailing h hs,
    fun _ h hwhole hinside => hd.run_of_refused h hwhole hinside s⟩

/-- A packet from six to five that seven has relayed. -/
def relayedPayload : List UInt8 :=
  [0, 0, 0, 9, 0, 0, 0, 5, 0, 0, 0, 6, 255, 255, 255, 254, 0, 0, 0, 1, 0, 0, 0, 7]

/-- A packet for a node that is off the ring. -/
def astrayPayload : List UInt8 := [0, 0, 0, 9, 0, 0, 0, 128]

/-- Without the last two bytes of its trace, with two bytes too many and then with three, and with
the rest of the packet that was refused at its destination. -/
theorem decode_append_relayed :
    decode (relayedPayload.take 22) = .error .truncated ∧
    decode (relayedPayload ++ [1, 2]) = .error (.trailingBytes 2) ∧
    decode (relayedPayload ++ [1, 2] ++ [3]) = .error (.trailingBytes 3) ∧
    decode (astrayPayload ++ relayedPayload.drop 8) = .error (.invalidNodeId 128) := by
  have hwhole : decode relayedPayload =
      .ok (dataPacket ⟨(5 : NodeId), (6 : NodeId), -2, [(7 : NodeId)]⟩) :=
    rfl
  have hlong : decode (relayedPayload ++ [1, 2]) = .error (.trailingBytes 2) :=
    (decode_append relayedPayload (by decide)).2.1 _ hwhole
  refine ⟨?_, hlong, (decode_append _ (by decide)).2.2.1 2 hlong, ?_⟩
  · exact (decode_append (relayedPayload.take 22) (s := [0, 7]) (by decide)).1 _ hwhole
  · exact (decode_append astrayPayload (by decide)).2.2.2 _ rfl nofun nofun

end Message

end RingOverlay
