import RingOverlay.Message.Frame
import RingOverlay.Proofs.Message.Cuts
import RingOverlay.Proofs.Message.RoundTrip

/-!
# Message — what a stream of frames brings

A stream is read frame by frame, and what one frame's worth of it brings has one reason: a message
came (`next_eq_message_iff`), or the stream stops, in one of the four ways that `Stops` lists
(`next_eq_ending_iff`).  So what is received, and how it ends, is known by how the stream is made up
(`receive_eq_iff`): frames of messages that a receiver can be sent (`Framed`), and a rest that it
stops at.

A length in a payload is twelve less than the payload at most, so within a limit of 2³¹ + 11 bytes
every string is as short as a payload can spell.  A longer one can be framed as well, but its length
is read as one below zero, and the stream stops there (`receive_lettered`).

* `receive_frames`: **what is received is the longest list of messages whose frames the stream
  begins with**, and the rest says how it ends.
-/

namespace RingOverlay

/-! ### How long payloads are -/

namespace Payload

open Bytes

@[simp] theorem length_ofLength (n : Nat) : (ofLength n).length = 4 := length_encodeNat _ _

@[simp] theorem length_ofCount (n : UInt32) : (ofCount n).length = 4 := length_encodeNat _ _

@[simp] theorem length_ofId (id : NodeId) : (ofId id).length = 4 := length_ofInt32 _

@[simp] theorem length_ofIds (ids : List NodeId) : (ofIds ids).length = 4 + 4 * ids.length := by
  have hids : (ids.flatMap ofId).length = 4 * ids.length := by
    induction ids with
    | nil => rfl
    | cons id ids ih =>
      rw [List.flatMap_cons, List.length_append, length_ofId, ih, List.length_cons]
      omega
  rw [ofIds, List.length_append, length_ofLength, hids]

@[simp] theorem length_ofString (s : String) : (ofString s).length = 4 + s.utf8ByteSize := by
  rw [ofString, List.length_append, length_ofLength]
  rfl

@[simp] theorem length_ofAddress (a : PeerAddress) :
    (ofAddress a).length = 8 + a.host.utf8ByteSize := by
  rw [ofAddress, List.length_append, length_ofString, length_encodeNat]
  omega

@[simp] theorem length_ofEntry (e : Entry) :
    (ofEntry e).length = 12 + e.address.host.utf8ByteSize := by
  rw [ofEntry, List.length_append, length_ofId, length_ofAddress]
  omega

/-- Every entry of a table takes its place, and its host on top of that. -/
theorem le_length_ofEntries (es : List Entry) :
    12 * es.length ≤ (es.flatMap ofEntry).length ∧
      ∀ e ∈ es, e.address.host.utf8ByteSize ≤ (es.flatMap ofEntry).length := by
  induction es with
  | nil => exact ⟨Nat.le_refl _, List.forall_mem_nil _⟩
  | cons e es ih =>
    have hlength := length_ofEntry e
    rw [List.flatMap_cons, List.length_append, List.length_cons, List.forall_mem_cons]
    refine ⟨by omega, by omega, fun x hx => ?_⟩
    have hhost := ih.2 x hx
    omega

/-- Entries whose hosts have `n` bytes at most. -/
theorem length_ofEntries_le {n : Nat} {es : List Entry}
    (h : ∀ e ∈ es, e.address.host.utf8ByteSize ≤ n) :
    (es.flatMap ofEntry).length ≤ (12 + n) * es.length := by
  induction es with
  | nil => exact Nat.zero_le _
  | cons e es ih =>
    obtain ⟨he, hes⟩ := List.forall_mem_cons.mp h
    have hentry := length_ofEntry e
    have hrest := ih hes
    rw [List.flatMap_cons, List.length_append, List.length_cons, Nat.mul_succ]
    omega

end Payload

namespace Message

theorem length_encode_nodeManifest (table : FingerTable) (ids : List NodeId) :
    (nodeManifest table ids).encode.length =
      12 + (table.entries.flatMap Payload.ofEntry).length + 4 * ids.length := by
  simp only [encode, fields, List.length_append, Bytes.length_ofInt32, Payload.length_ofLength,
    Payload.length_ofIds]
  omega

/-- A length that a payload spells is at least twelve less than the payload's own. -/
theorem lengths_add_le (m : Message) : ∀ n ∈ m.lengths, n + 12 ≤ m.encode.length := by
  have hencode : m.encode.length = 4 + m.fields.length := by
    rw [encode, List.length_append, Bytes.length_ofInt32]
  rw [hencode]
  cases m with
  | nodeRegisters a => simp [lengths, fields]; omega
  | registrationStatus status info | deregistrationStatus status info
  | overlaySetupStatus status info => simp [lengths, fields]; omega
  | nodeDeregisters a id | taskFinished a id => simp [lengths, fields]; omega
  | nodeManifest table ids =>
    obtain ⟨hsize, hhosts⟩ := Payload.le_length_ofEntries table.entries
    simp only [lengths, fields, List.length_append, Payload.length_ofLength, Payload.length_ofIds,
      List.forall_mem_cons, List.forall_mem_map, FingerTable.size]
    refine ⟨by omega, by omega, fun e he => ?_⟩
    have hhost := hhosts e he
    omega
  | dataPacket p => simp [lengths, fields]; omega
  | taskInitiate count | trafficSummaryRequest | trafficSummaryReport s => simp [lengths]

end Message

/-! ### Texts that are too long -/

namespace Decoder

open Message (maxLength)

variable {rest : List UInt8} {n : Nat} {s info : String} {status : Int32}

/-- A length that does not fit is read as one below zero. -/
theorem length_of_long (hlong : maxLength < n) (hlt : n < UInt32.size) :
    length (Payload.ofLength n ++ rest) = .error (.negativeLength (Int32.ofNat n)) := by
  have hread : i32 (Payload.ofLength n ++ rest) = .ok (Int32.ofNat n, rest) := by
    rw [i32_eq_ok, Bytes.ofInt32_ofNat hlt, Payload.ofLength]
  have hnegative : ¬ 0 ≤ (Int32.ofNat n).toInt := by
    change 2147483647 < n at hlong
    change n < 4294967296 at hlt
    change ¬ 0 ≤ (BitVec.ofNat 32 n).toInt
    rw [BitVec.toInt_eq_toNat_cond, BitVec.toNat_ofNat]
    omega
  refine bind_eq_error.mpr (.inr ⟨_, _, hread, ?_⟩)
  rw [if_neg hnegative]
  rfl

theorem string_of_long (hlong : maxLength < s.utf8ByteSize) (hlt : s.utf8ByteSize < UInt32.size) :
    string (Payload.ofString s ++ rest) =
      .error (.negativeLength (Int32.ofNat s.utf8ByteSize)) := by
  refine bind_eq_error.mpr (.inl ?_)
  rw [Payload.ofString, List.append_assoc]
  exact length_of_long hlong hlt

/-- The text of a status is the last of its fields, and the first that can be refused. -/
theorem decode_of_longInfo (hlong : maxLength < info.utf8ByteSize)
    (hlt : info.utf8ByteSize < UInt32.size) :
    Message.decode (Message.registrationStatus status info).encode =
      .error (.negativeLength (Int32.ofNat info.utf8ByteSize)) := by
  have hinfo : string (Payload.ofString info ++ []) = _ := string_of_long hlong hlt
  rw [List.append_nil] at hinfo
  have hfields : fields .registrationStatus (Message.registrationStatus status info).fields =
      .error (.negativeLength (Int32.ofNat info.utf8ByteSize)) :=
    bind_eq_error.mpr (.inr ⟨status, _, i32_eq_ok.mpr rfl, bind_eq_error.mpr (.inl hinfo)⟩)
  exact run_eq_error.mpr (.inl (bind_eq_error.mpr (.inr ⟨_, _, i32_eq_ok.mpr rfl, hfields⟩)))

end Decoder

namespace Frame

open Message (frame maxLength)

/-- A message that a receiver with a limit can be sent in a frame: its strings and lists are no
longer, and its packet counts no greater, than a payload can spell. -/
structure Framed (limit : Nat) (m : Message) : Prop where
  representable : m.Representable
  within : m.encode.length ≤ limit
  /-- The bytes in front of the payload can say how long it is. -/
  announced : m.encode.length < UInt32.size

/-- How a stream ends that does not begin with a frame. -/
inductive Stops (limit : Nat) : List UInt8 → Ending → Prop where
  /-- There are no bytes left to announce a payload. -/
  | clean {rest : List UInt8} (hshort : rest.length < lengthOctets) : Stops limit rest .clean
  /-- More is announced than the limit, whatever may follow. -/
  | tooLarge {front after : List UInt8} (hfront : front.length = lengthOctets)
      (hlarge : limit < Bytes.value front) :
      Stops limit (front ++ after) (.tooLarge ⟨Bytes.value front, limit⟩)
  /-- The payload that is announced is not there in full. -/
  | cutShort {front after : List UInt8} (hfront : front.length = lengthOctets)
      (hwithin : Bytes.value front ≤ limit) (hcut : after.length < Bytes.value front) :
      Stops limit (front ++ after) .cutShort
  /-- The payload that is announced is none of a message, whatever may follow. -/
  | malformed {front payload after : List UInt8} {error : DecodeError}
      (hfront : front.length = lengthOctets) (hwithin : Bytes.value front ≤ limit)
      (hwhole : payload.length = Bytes.value front)
      (hdecode : Message.decode payload = .error error) :
      Stops limit (front ++ (payload ++ after)) (.malformed error)

variable {limit : Nat} {m : Message} {ms : List Message} {e : Ending}
  {stream front payload rest : List UInt8}

/-! ### One frame -/

theorem next_of_short (h : stream.length < lengthOctets) : next limit stream = .ending .clean := by
  rw [next, Bytes.Read.take_of_lt h]

theorem next_of_front (hfront : front.length = lengthOctets) :
    next limit (front ++ rest) =
      if limit < Bytes.value front then .ending (.tooLarge ⟨Bytes.value front, limit⟩)
      else
        match Bytes.Read.take (Bytes.value front) rest with
        | (none, _) => .ending .cutShort
        | (some payload, rest') =>
          match Message.decode payload with
          | .error error => .ending (.malformed error)
          | .ok m => .message m rest' := by
  rw [next, Bytes.Read.take_append hfront]
  by_cases hlarge : limit < Bytes.value front
  · have hlength : length front limit = .error ⟨Bytes.value front, limit⟩ := if_pos hlarge
    simp only [hlength, if_pos hlarge]
  · have hlength : length front limit = .ok (Bytes.value front) := if_neg hlarge
    rcases htake : Bytes.Read.take (Bytes.value front) rest with ⟨_ | payload, after⟩
    · simp only [hlength, if_neg hlarge, htake]
    · cases hdecode : Message.decode payload <;>
        simp only [hlength, if_neg hlarge, htake, hdecode]

/-- What one frame's worth of a stream brings. -/
theorem next_cases (limit : Nat) (stream : List UInt8) :
    (∃ m rest, next limit stream = .message m rest ∧ Framed limit m ∧ stream = m.frame ++ rest) ∨
    ∃ e, next limit stream = .ending e ∧ Stops limit stream e := by
  rcases Nat.lt_or_ge stream.length lengthOctets with hshort | hlong
  · exact .inr ⟨_, next_of_short hshort, .clean hshort⟩
  · obtain ⟨front, after, hfront, rfl⟩ : ∃ front after, front.length = lengthOctets ∧
        stream = front ++ after :=
      ⟨stream.take 4, stream.drop 4, List.length_take_of_le hlong,
        (List.take_append_drop 4 stream).symm⟩
    rw [next_of_front hfront]
    by_cases hlarge : limit < Bytes.value front
    · rw [if_pos hlarge]
      exact .inr ⟨_, rfl, .tooLarge hfront hlarge⟩
    · have hwithin := Nat.not_lt.mp hlarge
      rw [if_neg hlarge]
      rcases Nat.lt_or_ge after.length (Bytes.value front) with hcut | hwhole
      · rw [Bytes.Read.take_of_lt hcut]
        exact .inr ⟨_, rfl, .cutShort hfront hwithin hcut⟩
      · obtain ⟨payload, rest, hpayload, rfl⟩ : ∃ payload rest, payload.length = Bytes.value front ∧
            after = payload ++ rest :=
          ⟨after.take (Bytes.value front), after.drop (Bytes.value front),
            List.length_take_of_le hwhole, (List.take_append_drop _ after).symm⟩
        rw [Bytes.Read.take_append hpayload]
        dsimp only
        cases hdecode : Message.decode payload with
        | error error => exact .inr ⟨_, rfl, .malformed hfront hwithin hpayload hdecode⟩
        | ok m =>
          obtain ⟨hrep, rfl⟩ := Message.decode_eq_ok.mp hdecode
          have hlt : Bytes.value front < 256 ^ front.length := Bytes.value_lt front
          rw [hfront] at hlt
          refine .inl ⟨m, rest, rfl, ⟨hrep, hpayload ▸ hwithin, hpayload ▸ hlt⟩, ?_⟩
          have hwritten : Bytes.encodeNat 4 (Bytes.value front) = front :=
            Bytes.encodeNat_value hfront
          rw [Message.frame, hpayload, hwritten, List.append_assoc]

theorem length_frame (m : Message) : m.frame.length = 4 + m.encode.length := by
  rw [Message.frame, List.length_append, Bytes.length_encodeNat]

/-- The bytes in front of a payload say how long it is. -/
theorem value_front (h : m.encode.length < UInt32.size) :
    Bytes.value (Bytes.encodeNat 4 m.encode.length) = m.encode.length := by
  rw [Bytes.value_encodeNat]
  exact Nat.mod_eq_of_lt h

theorem next_frame (hm : Framed limit m) (rest : List UInt8) :
    next limit (m.frame ++ rest) = .message m rest := by
  rw [Message.frame, List.append_assoc, next_of_front (Bytes.length_encodeNat 4 _),
    value_front hm.announced, if_neg (Nat.not_lt.mpr hm.within), Bytes.Read.take_append rfl]
  simp only [Message.decode_eq_ok.mpr ⟨hm.representable, rfl⟩]

theorem next_eq_message_iff : next limit stream = .message m rest ↔
    Framed limit m ∧ stream = m.frame ++ rest := by
  constructor
  · intro h
    rcases next_cases limit stream with ⟨m', rest', hnext, hm, hstream⟩ | ⟨e, hnext, -⟩
    · cases hnext.symm.trans h
      exact ⟨hm, hstream⟩
    · cases hnext.symm.trans h
  · rintro ⟨hm, rfl⟩
    exact next_frame hm rest

theorem next_of_stops (h : Stops limit stream e) : next limit stream = .ending e := by
  cases h with
  | clean hshort => exact next_of_short hshort
  | tooLarge hfront hlarge => rw [next_of_front hfront, if_pos hlarge]
  | cutShort hfront hwithin hcut =>
    rw [next_of_front hfront, if_neg (Nat.not_lt.mpr hwithin), Bytes.Read.take_of_lt hcut]
  | malformed hfront hwithin hwhole hdecode =>
    rw [next_of_front hfront, if_neg (Nat.not_lt.mpr hwithin), Bytes.Read.take_append hwhole]
    simp only [hdecode]

theorem next_eq_ending_iff : next limit stream = .ending e ↔ Stops limit stream e := by
  constructor
  · intro h
    rcases next_cases limit stream with ⟨m, rest, hnext, -⟩ | ⟨e', hnext, hstops⟩
    · cases hnext.symm.trans h
    · cases hnext.symm.trans h
      exact hstops
  · exact next_of_stops

/-! ### A whole stream -/

theorem receiveWithin_of_ending (h : next limit stream = .ending e) (fuel : Nat) :
    receiveWithin limit (fuel + 1) stream = ([], e) := by
  rw [receiveWithin, h]

theorem receiveWithin_of_message (h : next limit stream = .message m rest) (fuel : Nat) :
    receiveWithin limit (fuel + 1) stream =
      (m :: (receiveWithin limit fuel rest).1, (receiveWithin limit fuel rest).2) := by
  rw [receiveWithin, h]

/-- Reading as many frames as there are bytes reads all of them. -/
theorem receiveWithin_eq_receive {fuel : Nat} (h : stream.length < fuel) :
    receiveWithin limit fuel stream = receive limit stream := by
  obtain ⟨fuel, rfl⟩ := Nat.exists_eq_succ_of_ne_zero (Nat.ne_zero_of_lt h)
  rw [receive]
  -- Two amounts of fuel that both suffice, so that both shrink with the stream.
  generalize hbytes : stream.length = bytes at h ⊢
  have hle : stream.length ≤ bytes := Nat.le_of_eq hbytes
  clear hbytes
  induction fuel generalizing bytes stream with
  | zero =>
    obtain rfl : bytes = 0 := by omega
    rfl
  | succ fuel ih =>
    rcases next_cases limit stream with ⟨m, rest, hnext, -, rfl⟩ | ⟨e, hnext, -⟩
    · rw [List.length_append, length_frame] at hle
      obtain ⟨bytes, rfl⟩ : ∃ n, bytes = n + 1 := ⟨bytes - 1, by omega⟩
      rw [receiveWithin_of_message hnext, receiveWithin_of_message hnext,
        ih bytes (by omega) (by omega)]
    · rw [receiveWithin_of_ending hnext, receiveWithin_of_ending hnext]

theorem receive_of_stops (h : Stops limit stream e) : receive limit stream = ([], e) :=
  receiveWithin_of_ending (next_of_stops h) _

theorem receive_frame_append (hm : Framed limit m) (rest : List UInt8) :
    receive limit (m.frame ++ rest) = (m :: (receive limit rest).1, (receive limit rest).2) := by
  rw [receive, receiveWithin_of_message (next_frame hm rest), receiveWithin_eq_receive]
  rw [List.length_append, length_frame]
  omega

/-- Frames are received one after the other. -/
theorem receive_frames_append (hms : ∀ m ∈ ms, Framed limit m) (rest : List UInt8) :
    receive limit (ms.flatMap frame ++ rest) =
      (ms ++ (receive limit rest).1, (receive limit rest).2) := by
  induction ms with
  | nil => rfl
  | cons m ms ih =>
    obtain ⟨hm, hms⟩ := List.forall_mem_cons.mp hms
    rw [List.flatMap_cons, List.append_assoc, receive_frame_append hm, ih hms]
    rfl

/-- A stream is frames, and a rest that it stops at. -/
theorem exists_frames (limit : Nat) (stream : List UInt8) :
    ∃ (ms : List Message) (rest : List UInt8) (e : Ending), stream = ms.flatMap frame ++ rest ∧
      (∀ m ∈ ms, Framed limit m) ∧ Stops limit rest e := by
  induction hlength : stream.length using Nat.strongRecOn generalizing stream with
  | ind bytes ih =>
    rcases next_cases limit stream with ⟨m, after, -, hm, rfl⟩ | ⟨e, -, hstops⟩
    · have hshorter : after.length < bytes := by
        rw [← hlength, List.length_append, length_frame]
        omega
      obtain ⟨ms, rest, e, rfl, hms, hstops⟩ := ih after.length hshorter after rfl
      refine ⟨m :: ms, rest, e, ?_, List.forall_mem_cons.mpr ⟨hm, hms⟩, hstops⟩
      rw [List.flatMap_cons, List.append_assoc]
    · exact ⟨[], stream, e, rfl, List.forall_mem_nil _, hstops⟩

theorem receive_eq_iff : receive limit stream = (ms, e) ↔
    ∃ rest, stream = ms.flatMap frame ++ rest ∧ (∀ m ∈ ms, Framed limit m) ∧
      Stops limit rest e := by
  have hreceive {ms : List Message} {rest : List UInt8} {e : Ending}
      (hms : ∀ m ∈ ms, Framed limit m) (hstops : Stops limit rest e) :
      receive limit (ms.flatMap frame ++ rest) = (ms, e) := by
    rw [receive_frames_append hms, receive_of_stops hstops, List.append_nil]
  constructor
  · intro h
    obtain ⟨ms', rest, e', rfl, hms, hstops⟩ := exists_frames limit stream
    cases (hreceive hms hstops).symm.trans h
    exact ⟨rest, rfl, hms, hstops⟩
  · rintro ⟨rest, rfl, hms, hstops⟩
    exact hreceive hms hstops

/-! ### What is received -/

/-- A higher limit admits what a lower one does. -/
theorem Framed.mono {limit' : Nat} (h : Framed limit m) (hle : limit ≤ limit') : Framed limit' m :=
  ⟨h.representable, Nat.le_trans h.within hle, h.announced⟩

/-- Within a limit that allows no longer payloads than a string's length can be spelled for, the
lengths in a payload need no mention. -/
theorem framed_iff (hlimit : limit ≤ maxLength + 12) : Framed limit m ↔
    m.encode.length ≤ limit ∧ m.encode.length < UInt32.size ∧ ∀ n ∈ m.counts, n ≤ maxCount := by
  constructor
  · intro hm
    exact ⟨hm.within, hm.announced, hm.representable.counts⟩
  · rintro ⟨hwithin, hannounced, hcounts⟩
    refine ⟨⟨fun n hn => ?_, hcounts⟩, hwithin, hannounced⟩
    have hlength := m.lengths_add_le n hn
    omega

theorem Stops.append (h : Stops limit stream e) (hclean : e ≠ .clean) (hcut : e ≠ .cutShort)
    (more : List UInt8) : Stops limit (stream ++ more) e := by
  cases h with
  | clean => exact absurd rfl hclean
  | cutShort => exact absurd rfl hcut
  | tooLarge hfront hlarge =>
    rw [List.append_assoc]
    exact .tooLarge hfront hlarge
  | malformed hfront hwithin hwhole hdecode =>
    rw [List.append_assoc, List.append_assoc]
    exact .malformed hfront hwithin hwhole hdecode

theorem Stops.take {refusal : TooLarge} (h : Stops limit stream (.tooLarge refusal)) :
    Stops limit (stream.take lengthOctets) (.tooLarge refusal) := by
  cases h with
  | tooLarge hfront hlarge =>
    rename_i front after
    have htake : (front ++ after).take lengthOctets = front ++ [] := by
      rw [← hfront, List.take_left, List.append_nil]
    rw [htake]
    exact .tooLarge hfront hlarge

/-- **What is received is what was framed.**  A stream is the frames of the messages that it brings
and a rest.  Each of those messages can be framed within the limit, and there is no longer list of
such messages whose frames the stream begins with: every other one is the beginning of it.  The rest
alone says how the stream ends; a payload that is announced too large is refused for the bytes in
front of it, and after a refused frame it does not matter what comes. -/
theorem receive_frames (limit : Nat) (stream : List UInt8) :
    ∃ rest, stream = (receive limit stream).1.flatMap frame ++ rest ∧
      (∀ m ∈ (receive limit stream).1, Framed limit m) ∧
      (∀ ms after, stream = ms.flatMap frame ++ after → (∀ m ∈ ms, Framed limit m) →
        ms <+: (receive limit stream).1) ∧
      (∀ e, Stops limit rest e ↔ e = (receive limit stream).2) ∧
      (∀ refusal, (receive limit stream).2 = .tooLarge refusal →
        receive limit ((receive limit stream).1.flatMap frame ++ rest.take lengthOctets) =
          receive limit stream) ∧
      (∀ more, (receive limit stream).2 ≠ .clean → (receive limit stream).2 ≠ .cutShort →
        receive limit (stream ++ more) = receive limit stream) ∧
      (limit ≤ maxLength + 12 → ∀ m, Framed limit m ↔
        m.encode.length ≤ limit ∧ m.encode.length < UInt32.size ∧
          ∀ n ∈ m.counts, n ≤ maxCount) := by
  obtain ⟨rest, hstream, hframed, hstops⟩ :=
    receive_eq_iff.mp (Prod.eta (receive limit stream)).symm
  refine ⟨rest, hstream, hframed, fun ms after h hms => ?_, fun e => ⟨fun he => ?_, ?_⟩,
    fun refusal hlarge => ?_, fun more hclean hcut => ?_, fun hlimit m => framed_iff hlimit⟩
  · rw [h, receive_frames_append hms]
    exact List.prefix_append _ _
  · exact congrArg Prod.snd ((receive_of_stops he).symm.trans (receive_of_stops hstops))
  · rintro rfl
    exact hstops
  · rw [hlarge] at hstops
    exact (receive_eq_iff.mpr ⟨_, rfl, hframed, hstops.take⟩).trans (Prod.ext rfl hlarge.symm)
  · refine (receive_eq_iff.mpr ⟨rest ++ more, ?_, hframed, hstops.append hclean hcut more⟩).trans
      (Prod.eta _)
    rw [← List.append_assoc, ← hstream]

/-- A message with a text of `n` letters. -/
def lettered (n : Nat) : Message := .registrationStatus 5 (String.ofList (List.replicate n 'a'))

theorem utf8ByteSize_letters (n : Nat) :
    (String.ofList (List.replicate n 'a')).utf8ByteSize = n := by
  induction n with
  | zero => rfl
  | succ n ih =>
    rw [List.replicate_succ, String.ofList_cons, String.utf8ByteSize_append,
      String.utf8ByteSize_singleton, ih, Nat.add_comm]
    rfl

theorem length_encode_lettered (n : Nat) : (lettered n).encode.length = n + 12 := by
  rw [lettered, Message.encode, Message.fields, List.length_append, List.length_append,
    Bytes.length_ofInt32, Bytes.length_ofInt32, Payload.length_ofString, utf8ByteSize_letters]
  omega

/-- A text that is too long ends the stream, however high the limit. -/
theorem receive_lettered {n : Nat} (hlong : maxLength < n) (hwithin : n + 12 ≤ limit)
    (hlt : n + 12 < UInt32.size) :
    receive limit (lettered n).frame = ([], .malformed (.negativeLength (Int32.ofNat n))) := by
  have hlength := length_encode_lettered n
  have hvalue := value_front (hlength ▸ hlt)
  have hsize := utf8ByteSize_letters n
  have hdecode : Message.decode (lettered n).encode =
      .error (.negativeLength (Int32.ofNat n)) :=
    (Decoder.decode_of_longInfo (by omega) (by omega)).trans (by rw [hsize])
  have hstops : Stops limit (Bytes.encodeNat 4 (lettered n).encode.length ++
      ((lettered n).encode ++ [])) (.malformed (.negativeLength (Int32.ofNat n))) :=
    .malformed (Bytes.length_encodeNat 4 _) (by omega) hvalue.symm hdecode
  rw [List.append_nil] at hstops
  exact receive_of_stops hstops

/-- A text of 2³¹ letters is within a limit of 2³¹ + 12 bytes, and four bytes can say how long its
payload is; but nothing is received of it. -/
theorem receive_frames_longText :
    (lettered 2147483648).encode.length ≤ 2147483660 ∧
    (lettered 2147483648).encode.length < UInt32.size ∧
    (∀ n ∈ (lettered 2147483648).counts, n ≤ maxCount) ∧
    receive 2147483660 ([lettered 2147483648].flatMap frame ++ []) =
      ([], .malformed (.negativeLength (-2147483648))) := by
  have hlength := length_encode_lettered 2147483648
  refine ⟨by omega, ?_, List.forall_mem_nil _, ?_⟩
  · rw [hlength]
    decide
  · rw [List.append_nil, List.flatMap_singleton]
    exact receive_lettered (by decide) (by decide) (by decide)

/-- Two frames, and then one that announces 256 bytes where 30 are allowed. -/
def twoThenTooLarge : List UInt8 :=
  [0, 0, 0, 8, 0, 0, 0, 8, 0, 0, 0, 3] ++ [0, 0, 0, 4, 0, 0, 0, 11] ++ [0, 0, 1, 0] ++ [9, 9]

/-- The first two are received, and neither what the third brings nor what follows it matters. -/
theorem receive_frames_twoThenTooLarge :
    receive 30 twoThenTooLarge =
      ([.taskInitiate 3, .trafficSummaryRequest], .tooLarge ⟨256, 30⟩) ∧
    [.taskInitiate 3] <+: (receive 30 twoThenTooLarge).1 ∧
    receive 30 (twoThenTooLarge ++ [1, 2, 3]) = receive 30 twoThenTooLarge ∧
    Framed 30 (.taskInitiate 3) := by
  have h : receive 30 twoThenTooLarge =
      ([.taskInitiate 3, .trafficSummaryRequest], .tooLarge ⟨256, 30⟩) := by decide
  obtain ⟨rest, -, -, hlongest, -, -, hmore, hplain⟩ := receive_frames 30 twoThenTooLarge
  have hframed : Framed 30 (.taskInitiate 3) := (hplain (by decide) _).mpr ⟨by decide, by decide,
    List.forall_mem_singleton.mpr (by decide)⟩
  refine ⟨h, ?_, hmore [1, 2, 3] (by rw [h]; decide) (by rw [h]; decide), hframed⟩
  exact hlongest [.taskInitiate 3] ([0, 0, 0, 4, 0, 0, 0, 11] ++ [0, 0, 1, 0] ++ [9, 9]) rfl
    (List.forall_mem_singleton.mpr hframed)

end Frame

end RingOverlay
