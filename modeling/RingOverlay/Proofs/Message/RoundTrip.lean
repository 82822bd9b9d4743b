import RingOverlay.Proofs.Message.Fields

/-!
# Message — every message has one payload

A message is *representable* if its lengths and packet counts are ones that a payload can spell.
What is read as a message is what is written for it, and then it is representable (`decode_eq_ok`):
the readers of the fields leave no second way to write a value, and nothing may follow the last of
them.

* `decode_encode`: **decoding undoes encoding**, up to packet counts that do not fit the wire.
* `decode_canonical`: **encoding undoes decoding**, for any bytes at all.
-/

namespace RingOverlay

namespace Kind

theorem ofTag?_eq_some_iff {n : Int32} {k : Kind} : ofTag? n = some k ↔ n = k.tag := by
  constructor
  · intro h
    have htag : (k.tag == n) = true := List.find?_some (p := fun x : Kind => x.tag == n) h
    exact (beq_iff_eq.mp htag).symm
  · rintro rfl
    cases k with
    | _ => rfl

end Kind

namespace Message

/-! ### What a message holds -/

/-- The lengths that the payload of a message spells: those of its strings, in bytes, and of its
lists. -/
def lengths : Message → List Nat
  | nodeRegisters a => [a.host.utf8ByteSize]
  | registrationStatus _ info => [info.utf8ByteSize]
  | nodeDeregisters a _ => [a.host.utf8ByteSize]
  | deregistrationStatus _ info => [info.utf8ByteSize]
  | nodeManifest table nodeIds =>
    table.size :: nodeIds.length :: table.entries.map (·.address.host.utf8ByteSize)
  | overlaySetupStatus _ info => [info.utf8ByteSize]
  | taskInitiate _ => []
  | dataPacket p => [p.trace.length]
  | taskFinished a _ => [a.host.utf8ByteSize]
  | trafficSummaryRequest => []
  | trafficSummaryReport _ => []

/-- The packet counts of a message. -/
def counts : Message → List UInt32
  | taskInitiate count => [count]
  | trafficSummaryReport s => [s.sent, s.relayed, s.received]
  | _ => []

/-- The identifiers in a message. -/
def ids : Message → List NodeId
  | nodeDeregisters _ id => [id]
  | nodeManifest table nodeIds => table.ids ++ nodeIds
  | dataPacket p => p.dst :: p.src :: p.trace
  | taskFinished _ id => [id]
  | trafficSummaryReport s => [s.id]
  | _ => []

/-- The ports in a message. -/
def ports : Message → List UInt16
  | nodeRegisters a => [a.port]
  | nodeDeregisters a _ => [a.port]
  | nodeManifest table _ => table.entries.map (·.address.port)
  | taskFinished a _ => [a.port]
  | _ => []

/-- The identifiers of the routing table in a message. -/
def routes : Message → List NodeId
  | nodeManifest table _ => table.ids
  | _ => []

/-- A message whose lengths and packet counts are all ones that a payload can spell. -/
structure Representable (m : Message) : Prop where
  lengths : ∀ n ∈ m.lengths, n ≤ maxLength
  counts : ∀ n ∈ m.counts, n ≤ maxCount

theorem representable_iff {m : Message} :
    m.Representable ↔ (∀ n ∈ m.lengths, n ≤ maxLength) ∧ ∀ n ∈ m.counts, n ≤ maxCount :=
  ⟨fun h => ⟨h.lengths, h.counts⟩, fun h => ⟨h.1, h.2⟩⟩

/-! ### One payload -/

open Decoder

variable {m : Message} {k : Kind} {bs rest : List UInt8}

/-- What is read as a message is what is written for it. -/
theorem fields_of_eq_ok (h : Decoder.fields k bs = .ok (m, rest)) :
    m.kind = k ∧ m.Representable ∧ bs = m.fields ++ rest := by
  rw [representable_iff]
  cases k with
  | nodeRegisters =>
    simp only [Decoder.fields, bind_eq_ok, address_eq_ok, pure_eq_ok] at h
    obtain ⟨a, _, ⟨ha, rfl⟩, rfl, rfl⟩ := h
    simp [kind, lengths, counts, Message.fields, ha]
  | registrationStatus | deregistrationStatus | overlaySetupStatus =>
    simp only [Decoder.fields, bind_eq_ok, i32_eq_ok, string_eq_ok, pure_eq_ok] at h
    obtain ⟨status, _, rfl, info, _, ⟨hinfo, rfl⟩, rfl, rfl⟩ := h
    simp [kind, lengths, counts, Message.fields, hinfo]
  | nodeDeregisters | taskFinished =>
    simp only [Decoder.fields, bind_eq_ok, address_eq_ok, id_eq_ok, pure_eq_ok] at h
    obtain ⟨a, _, ⟨ha, rfl⟩, id, _, rfl, rfl, rfl⟩ := h
    simp [kind, lengths, counts, Message.fields, ha]
  | nodeManifest =>
    simp only [Decoder.fields, bind_eq_ok, length_eq_ok, entries_empty_eq_ok, ids_eq_ok,
      pure_eq_ok] at h
    obtain ⟨_, _, ⟨hsize, rfl⟩, table, _, ⟨rfl, hhosts, rfl⟩, ids, _, ⟨hids, rfl⟩, rfl, rfl⟩ := h
    simp only [kind, lengths, counts, Message.fields, List.forall_mem_cons, List.forall_mem_map,
      List.append_assoc]
    exact ⟨trivial, ⟨⟨hsize, hids, hhosts⟩, by simp⟩, trivial⟩
  | taskInitiate =>
    simp only [Decoder.fields, bind_eq_ok, count_eq_ok, pure_eq_ok] at h
    obtain ⟨n, _, ⟨hn, rfl⟩, rfl, rfl⟩ := h
    simp [kind, lengths, counts, Message.fields, hn]
  | dataPacket =>
    simp only [Decoder.fields, bind_eq_ok, id_eq_ok, i32_eq_ok, ids_eq_ok, pure_eq_ok] at h
    obtain ⟨dst, _, rfl, src, _, rfl, payload, _, rfl, trace, _, ⟨htrace, rfl⟩, rfl, rfl⟩ := h
    simp [kind, lengths, counts, Message.fields, htrace]
  | trafficSummaryRequest =>
    obtain ⟨rfl, rfl⟩ := pure_eq_ok.mp h
    simp [kind, lengths, counts, Message.fields]
  | trafficSummaryReport =>
    simp only [Decoder.fields, bind_eq_ok, id_eq_ok, count_eq_ok, i64_eq_ok, pure_eq_ok] at h
    obtain ⟨id, _, rfl, sent, _, ⟨hsent, rfl⟩, relayed, _, ⟨hrelayed, rfl⟩, sentSum, _, rfl,
      received, _, ⟨hreceived, rfl⟩, receivedSum, _, rfl, rfl, rfl⟩ := h
    simp [kind, lengths, counts, Message.fields, hsent, hrelayed, hreceived]

/-- What is written for a message is read as the message. -/
theorem fields_eq_ok (h : m.Representable) :
    Decoder.fields m.kind (m.fields ++ rest) = .ok (m, rest) := by
  have hlengths := h.lengths
  have hcounts := h.counts
  cases m with
  | nodeRegisters a =>
    obtain ⟨ha, -⟩ := List.forall_mem_cons.mp hlengths
    simp only [kind, Decoder.fields, bind_eq_ok, address_eq_ok, pure_eq_ok]
    exact ⟨a, rest, ⟨ha, rfl⟩, rfl, rfl⟩
  | registrationStatus status info | deregistrationStatus status info
  | overlaySetupStatus status info =>
    obtain ⟨hinfo, -⟩ := List.forall_mem_cons.mp hlengths
    simp only [kind, Decoder.fields, bind_eq_ok, i32_eq_ok, string_eq_ok, pure_eq_ok]
    exact ⟨status, _, List.append_assoc .., info, rest, ⟨hinfo, rfl⟩, rfl, rfl⟩
  | nodeDeregisters a id | taskFinished a id =>
    obtain ⟨ha, -⟩ := List.forall_mem_cons.mp hlengths
    simp only [kind, Decoder.fields, bind_eq_ok, address_eq_ok, id_eq_ok, pure_eq_ok]
    exact ⟨a, _, ⟨ha, List.append_assoc ..⟩, id, rest, rfl, rfl, rfl⟩
  | nodeManifest table ids =>
    obtain ⟨hsize, hlengths⟩ := List.forall_mem_cons.mp hlengths
    obtain ⟨hids, hhosts⟩ := List.forall_mem_cons.mp hlengths
    simp only [kind, Message.fields, Decoder.fields, bind_eq_ok, length_eq_ok, entries_empty_eq_ok,
      ids_eq_ok, pure_eq_ok, List.append_assoc]
    exact ⟨table.size, _, ⟨hsize, rfl⟩, table, _, ⟨rfl, List.forall_mem_map.mp hhosts, rfl⟩,
      ids, rest, ⟨hids, rfl⟩, rfl, rfl⟩
  | taskInitiate n =>
    obtain ⟨hn, -⟩ := List.forall_mem_cons.mp hcounts
    simp only [kind, Decoder.fields, bind_eq_ok, count_eq_ok, pure_eq_ok]
    exact ⟨n, rest, ⟨hn, rfl⟩, rfl, rfl⟩
  | dataPacket p =>
    obtain ⟨htrace, -⟩ := List.forall_mem_cons.mp hlengths
    simp only [kind, Message.fields, Decoder.fields, bind_eq_ok, id_eq_ok, i32_eq_ok, ids_eq_ok,
      pure_eq_ok, List.append_assoc]
    exact ⟨p.dst, _, rfl, p.src, _, rfl, p.payload, _, rfl, p.trace, rest, ⟨htrace, rfl⟩, rfl, rfl⟩
  | trafficSummaryRequest => rfl
  | trafficSummaryReport s =>
    obtain ⟨hsent, hcounts⟩ := List.forall_mem_cons.mp hcounts
    obtain ⟨hrelayed, hcounts⟩ := List.forall_mem_cons.mp hcounts
    obtain ⟨hreceived, -⟩ := List.forall_mem_cons.mp hcounts
    simp only [kind, Message.fields, Decoder.fields, bind_eq_ok, id_eq_ok, count_eq_ok, i64_eq_ok,
      pure_eq_ok, List.append_assoc]
    exact ⟨s.id, _, rfl, s.sent, _, ⟨hsent, rfl⟩, s.relayed, _, ⟨hrelayed, rfl⟩, s.sentSum, _, rfl,
      s.received, _, ⟨hreceived, rfl⟩, s.receivedSum, rest, rfl, rfl, rfl⟩

/-- **A payload in front of `rest` is read as a message if and only if it is what is written for
that message, and the message is representable.** -/
theorem message_eq_ok : Decoder.message bs = .ok (m, rest) ↔
    m.Representable ∧ bs = m.encode ++ rest := by
  unfold Decoder.message
  rw [bind_eq_ok]
  constructor
  · rintro ⟨tag, mid, htag, hfields⟩
    cases hkind : Kind.ofTag? tag with
    | none =>
      rw [hkind] at hfields
      exact absurd hfields throw_ne_ok
    | some k =>
      rw [hkind] at hfields
      obtain ⟨rfl, hm, rfl⟩ := fields_of_eq_ok hfields
      obtain rfl := Kind.ofTag?_eq_some_iff.mp hkind
      exact ⟨hm, by rw [i32_eq_ok.mp htag, encode, List.append_assoc]⟩
  · rintro ⟨hm, rfl⟩
    refine ⟨m.kind.tag, m.fields ++ rest, i32_eq_ok.mpr (List.append_assoc ..), ?_⟩
    rw [Kind.ofTag?_eq_some_iff.mpr rfl]
    exact fields_eq_ok hm

theorem decode_eq_ok {p : List UInt8} : decode p = .ok m ↔ m.Representable ∧ p = m.encode := by
  rw [decode, run_eq_ok, message_eq_ok, List.append_nil]

theorem nodup_routes (m : Message) : m.routes.Nodup := by
  cases m with
  | nodeManifest table nodeIds => exact table.nodup_ids
  | _ => exact .nil

/-! ### Packet counts that do not fit -/

theorem clampCount_le (n : UInt32) : clampCount n ≤ maxCount := by
  by_cases h : n ≤ maxCount
  · rwa [clampCount, show min n maxCount = n from if_pos h]
  · rw [clampCount, show min n maxCount = maxCount from if_neg h]
    exact UInt32.le_refl _

theorem clampCount_of_le {n : UInt32} (h : n ≤ maxCount) : clampCount n = n := if_pos h

theorem lengths_clamp (m : Message) : m.clamp.lengths = m.lengths := by
  cases m with
  | _ => rfl

theorem counts_clamp (m : Message) : m.clamp.counts = m.counts.map clampCount := by
  cases m with
  | _ => rfl

/-- Packet counts are cut before they are written, and so it makes no difference to cut them. -/
theorem encode_clamp (m : Message) : m.clamp.encode = m.encode := by
  have hcount : ∀ n, Payload.ofCount (clampCount n) = Payload.ofCount n := fun n => by
    rw [Payload.ofCount, clampCount_of_le (clampCount_le n), Payload.ofCount]
  cases m with
  | taskInitiate count => simp [clamp, encode, kind, Message.fields, hcount]
  | trafficSummaryReport s => simp [clamp, encode, kind, Message.fields, hcount]
  | _ => rfl

theorem clamp_of_counts (h : ∀ n ∈ m.counts, n ≤ maxCount) : m.clamp = m := by
  cases m with
  | taskInitiate count =>
    rw [clamp, clampCount_of_le (h count List.mem_cons_self)]
  | trafficSummaryReport s =>
    obtain ⟨hsent, h⟩ := List.forall_mem_cons.mp h
    obtain ⟨hrelayed, h⟩ := List.forall_mem_cons.mp h
    obtain ⟨hreceived, -⟩ := List.forall_mem_cons.mp h
    rw [clamp, clampCount_of_le hsent, clampCount_of_le hrelayed, clampCount_of_le hreceived]
  | _ => rfl

theorem representable_clamp (h : ∀ n ∈ m.lengths, n ≤ maxLength) : m.clamp.Representable where
  lengths := lengths_clamp m ▸ h
  counts := by
    rw [counts_clamp]
    exact List.forall_mem_map.mpr fun n _ => clampCount_le n

/-! ### Round trips -/

/-- **Decoding undoes encoding.**  A message whose strings and lists are as short as a payload can
spell is decoded from its own payload, with its packet counts cut to what the wire carries and all
else as it was; so it is decoded unchanged if its packet counts fit. -/
theorem decode_encode (h : ∀ n ∈ m.lengths, n ≤ maxLength) :
    decode m.encode = .ok m.clamp ∧
      m.clamp.counts = m.counts.map (min · maxCount) ∧
      ((∀ n ∈ m.counts, n ≤ maxCount) → decode m.encode = .ok m) := by
  have hclamp : decode m.encode = .ok m.clamp :=
    decode_eq_ok.mpr ⟨representable_clamp h, (encode_clamp m).symm⟩
  refine ⟨hclamp, counts_clamp m, fun hcounts => ?_⟩
  rw [hclamp, clamp_of_counts hcounts]

/-- A table with two fingers. -/
def twoFingers : FingerTable :=
  ⟨[⟨(9 : NodeId), ⟨"10.0.0.2", 40001⟩⟩, ⟨(101 : NodeId), ⟨"10.0.0.3", 40002⟩⟩], by decide⟩

/-- A summary with two counts that do not fit comes back with them cut, and a manifest as it was. -/
theorem decode_encode_saturated :
    decode (trafficSummaryReport ⟨(3 : NodeId), 0xFFFFFFFF, 25, -7, 0x80000000, 12⟩).encode =
      .ok (trafficSummaryReport ⟨(3 : NodeId), 0x7FFFFFFF, 25, -7, 0x7FFFFFFF, 12⟩) ∧
    decode (nodeManifest twoFingers [(9 : NodeId), (101 : NodeId), (4 : NodeId)]).encode =
      .ok (nodeManifest twoFingers [(9 : NodeId), (101 : NodeId), (4 : NodeId)]) :=
  ⟨(decode_encode (by decide)).1, (decode_encode (by decide)).2.2 (List.forall_mem_nil _)⟩

/-- **Encoding undoes decoding.**  Bytes that are decoded to a message are its payload, and nothing
that they spell is out of range: identifiers are on the ring, ports and packet counts fit, and no
identifier is repeated in a routing table.  So a message is decoded from one payload at most, and
what is decoded at all is exactly the payloads of representable messages. -/
theorem decode_canonical (p : List UInt8) :
    (∀ m, decode p = .ok m → m.encode = p ∧ (∀ id ∈ m.ids, id.val < 128) ∧
      (∀ port ∈ m.ports, port.toNat < 65536) ∧ (∀ n ∈ m.counts, n ≤ maxCount) ∧
      m.routes.Nodup) ∧
    (∀ m q, decode p = .ok m → decode q = .ok m → p = q) ∧
    ∀ m, decode p = .ok m ↔ m.Representable ∧ m.encode = p := by
  refine ⟨fun m hm => ?_, fun m q hp hq => ?_, fun m => ?_⟩
  · obtain ⟨hrep, hpayload⟩ := decode_eq_ok.mp hm
    exact ⟨hpayload.symm, fun id _ => id.isLt, fun port _ => port.toNat_lt, hrep.counts,
      nodup_routes m⟩
  · rw [(decode_eq_ok.mp hp).2, (decode_eq_ok.mp hq).2]
  · rw [decode_eq_ok, eq_comm (a := p)]

/-- The packet from six to five that seven has relayed, byte by byte. -/
theorem decode_canonical_packet :
    decode [0, 0, 0, 9, 0, 0, 0, 5, 0, 0, 0, 6, 255, 255, 255, 254, 0, 0, 0, 1, 0, 0, 0, 7] =
      .ok (dataPacket ⟨(5 : NodeId), (6 : NodeId), -2, [(7 : NodeId)]⟩) ∧
    ∀ q, decode q = .ok (dataPacket ⟨(5 : NodeId), (6 : NodeId), -2, [(7 : NodeId)]⟩) →
      q = [0, 0, 0, 9, 0, 0, 0, 5, 0, 0, 0, 6, 255, 255, 255, 254, 0, 0, 0, 1, 0, 0, 0, 7] := by
  have h : decode
      [0, 0, 0, 9, 0, 0, 0, 5, 0, 0, 0, 6, 255, 255, 255, 254, 0, 0, 0, 1, 0, 0, 0, 7] =
      .ok (dataPacket ⟨(5 : NodeId), (6 : NodeId), -2, [(7 : NodeId)]⟩) := rfl
  exact ⟨h, fun q hq => (decode_canonical q).2.1 _ _ hq h⟩

end Message

end RingOverlay
