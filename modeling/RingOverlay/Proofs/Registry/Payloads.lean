import RingOverlay.Proofs.Address.Lengths
import RingOverlay.Proofs.Message.Frames
import RingOverlay.Proofs.Registry.Deeds
import RingOverlay.Proofs.Registry.Manifests

/-!
# Registry — how long manifests get

A node chooses the host that it registers with, and the host goes out to every node whose table has
it for a finger.  What keeps it short is that a registration has to come from the host that it
claims: the host of a member is the literal of an IP address (`Sound.exists_ip`).  There are no more
members than identifiers, and no more fingers in a table than members, which bounds what a setup
sends (`Layout.Assigns.length_manifest_le`).

* `manifest_of_posted`: manifests are what a setup sends, and nothing else sends any.
* `manifests_fit`: **no manifest outgrows a frame**, whatever the nodes have claimed.
-/

namespace RingOverlay

/-! ### Short messages -/

/-- A message is short if its payload has `n` bytes at most, and whoever accepts frames of that
length receives it. -/
structure Message.Short (n : Nat) (m : Message) : Prop where
  length_le : m.encode.length ≤ n
  received : ∀ limit, n ≤ limit → ∀ rest, Frame.next limit (m.frame ++ rest) = .message m rest

theorem Message.short_of_length_le {n : Nat} {m : Message} (hn : n ≤ maxLength)
    (hcounts : m.counts = []) (h : m.encode.length ≤ n) : m.Short n := by
  have hannounced : m.encode.length < UInt32.size :=
    Nat.lt_of_le_of_lt (Nat.le_trans h hn) (by decide)
  have hframed : Frame.Framed n m :=
    (Frame.framed_iff (Nat.le_add_right_of_le hn)).mpr
      ⟨h, hannounced, hcounts ▸ List.forall_mem_nil _⟩
  exact ⟨h, fun limit hle rest => Frame.next_frame (hframed.mono hle) rest⟩

/-! ### Members and tables -/

/-- There are no more members than identifiers. -/
theorem Membership.InOrder.length_le {m : Membership} (h : m.InOrder) :
    m.members.length ≤ ringSize := by
  have hcard := h.nodup_ids.length_le_card
  rwa [List.length_map, Fintype.card_fin] at hcard

namespace Layout

variable {members : List Entry} {size : Nat} {table : Entry → FingerTable}

/-- A manifest takes twelve bytes for each finger besides its host, four for each member, and twelve
more. -/
theorem Assigns.length_manifest_le (h : Assigns members size table) {n : Nat}
    (hhosts : ∀ e ∈ members, e.address.host.utf8ByteSize ≤ n) {m : Entry} (hm : m ∈ members) :
    (Message.nodeManifest (table m) (members.map Entry.id)).encode.length ≤
      12 + (12 + n) * members.length + 4 * members.length := by
  have hfingers := Nat.mul_le_mul_left (12 + n) (h.length_le hm)
  have hentries : ((table m).entries.flatMap Payload.ofEntry).length ≤
      (12 + n) * (table m).entries.length :=
    Payload.length_ofEntries_le fun e he => hhosts e (h.others m hm e he).1
  rw [Message.length_encode_nodeManifest, List.length_map]
  omega

end Layout

namespace Registry

variable {r : Registry} {a : Action} {k : LinkId} {m : Message}

/-- The host of a member is the literal of an IP address. -/
theorem Sound.exists_ip {size : Nat} {ws : List Watch} {s : Roll} (h : Sound size ws s) {e : Entry}
    (he : e ∈ s.membership.members) : ∃ ip, Ip.parse? e.address.host = some ip := by
  obtain ⟨link, hlink⟩ := h.exists_cached he
  obtain ⟨peer, -, hmatches⟩ := h.observed _ _ hlink
  exact PeerAddress.exists_parse?_of_matchesHost hmatches

theorem Sound.host_le {size : Nat} {ws : List Watch} {s : Roll} (h : Sound size ws s) :
    ∀ e ∈ s.membership.members, e.address.host.utf8ByteSize ≤ 45 := by
  intro e he
  obtain ⟨ip, hip⟩ := h.exists_ip he
  exact Ip.utf8ByteSize_of_parse? hip

/-! ### What sends manifests -/

theorem Deed.tables_of_manifest {l : Ledger} {post : LinkId → List Message} (h : Deed r a l post)
    (hm : m ∈ post k) (hkind : m.kind = .nodeManifest) :
    ∃ size tables, a = .setup size ∧
      Layout.tables r.membership.members (size.getD r.config.defaultTableSize) = .ok tables ∧
      ∃ x ∈ r.membership.members.zip tables, m = .nodeManifest x.2.2 r.membership.ids := by
  cases h with
  | stays | advances | asksNobody | collects | publishes => cases hm
  | refuses hanswer =>
    obtain ⟨-, -, rfl⟩ := mem_answering hm
    obtain ⟨info, rfl | rfl⟩ := hanswer <;> cases hkind
  | admits id info hpeer hnew | releases info he =>
    obtain ⟨-, -, rfl⟩ := mem_answering hm
    cases hkind
  | starts hcount hphase htold | asks hphase htold =>
    obtain ⟨x, -, rfl⟩ := List.mem_map.mp hm
    cases hkind
  | setsUp hrun htables =>
    obtain ⟨x, hx, rfl⟩ := List.mem_map.mp hm
    exact ⟨_, _, rfl, htables, x, (List.mem_filter.mp hx).1, rfl⟩

/-- **Manifests are sent by a setup**, one for a member and the table laid out for it. -/
theorem manifest_of_posted (hm : m ∈ r.posted a k) (hkind : m.kind = .nodeManifest) :
    ∃ size tables, a = .setup size ∧
      Layout.tables r.membership.members (size.getD r.config.defaultTableSize) = .ok tables ∧
      ∃ x ∈ r.membership.members.zip tables, m = .nodeManifest x.2.2 r.membership.ids := by
  cases a with
  | connected peer | closed link => rw [posted_silent rfl] at hm; cases hm
  | noticed => rw [posted_noticed] at hm; cases hm
  | received link request => exact (deed_received r link request).tables_of_manifest hm hkind
  | setup size => exact (deed_setup r size).tables_of_manifest hm hkind
  | start count => exact (deed_start r count).tables_of_manifest hm hkind
  | elapsed ms => exact (deed_elapsed r ms).tables_of_manifest hm hkind

/-- **What an action sends fits**, if it is a manifest. -/
theorem short_of_posted {capacity : Nat} (h : Sound capacity [] r.roll) (hm : m ∈ r.posted a k)
    (hkind : m.kind = .nodeManifest) : m.Short 8192 := by
  obtain ⟨size, tables, -, htables, x, hx, rfl⟩ := manifest_of_posted hm hkind
  have hd : (r.membership.members.map Entry.id).Nodup := h.members.nodup_ids
  obtain ⟨table, rfl, hassigns⟩ := Layout.exists_assigns hd htables
  rw [zip_map_self] at hx
  obtain ⟨e, he, rfl⟩ := List.mem_map.mp hx
  refine Message.short_of_length_le (by decide) rfl ?_
  have hlength := hassigns.length_manifest_le h.host_le he
  have hmembers : r.membership.members.length ≤ 128 := h.members.length_le
  exact Nat.le_trans hlength (by omega)

/-- Whatever has happened, no manifest that has been queued is long. -/
theorem Occurs.short {config : RegistryConfig} {draws : Draws} (h : Occurs config draws r) :
    ∀ k, ∀ m ∈ r.mail k, m.kind = .nodeManifest → m.Short 8192 := by
  -- What an action adds is bounded by who was a member before it, not after.
  induction h with
  | initial => exact fun k m hm => nomatch hm
  | @act r h a ih =>
    intro k m hm hkind
    rw [mail_act] at hm
    rcases List.mem_append.mp hm with hold | hnew
    · exact ih k m hold hkind
    · exact short_of_posted h.sound hnew hkind
  | @notice r w h hw hclosed ih =>
    intro k m hm
    rw [mail_congr (outbox_connectionLost _ w)] at hm
    exact ih k m hm

/-- **No manifest outgrows a frame.**  The hosts of the members are what the nodes have claimed, but
each is the literal of an IP address and has 45 bytes at most.  A setup that succeeds, with whatever
table size, sends manifests and nothing else; and of all that has ever been sent, every manifest has
a payload of at most 8192 bytes, so that whoever accepts frames of that length receives it.  The
default limit is far above that. -/
theorem manifests_fit {config : RegistryConfig} {draws : Draws} (h : Occurs config draws r) :
    (∀ e ∈ r.membership.members, (∃ ip, Ip.parse? e.address.host = some ip) ∧
      e.address.host.utf8ByteSize ≤ 45) ∧
    (∀ size nodes, (r.setup size).2 = .ok nodes → ∀ k, ∃ manifests,
      (r.setup size).1.mail k = r.mail k ++ manifests ∧
      ∀ m ∈ manifests, m.kind = .nodeManifest ∧ m.Short 8192) ∧
    (∀ k, ∀ m ∈ r.mail k, m.kind = .nodeManifest → m.Short 8192) ∧
    2000 * 8192 < Frame.defaultLimit := by
  refine ⟨fun e he => ⟨h.sound.exists_ip he, h.sound.host_le e he⟩, fun size nodes hok k => ?_,
    h.short, by decide⟩
  obtain ⟨hrun, -, tables, htables⟩ := exists_tables_of_setup hok
  have hposted := posted_setup (k := k) hrun htables
  refine ⟨r.posted (.setup size) k, mail_act r (.setup size) k, fun m hm => ?_⟩
  have hkind : m.kind = .nodeManifest := by
    rw [hposted] at hm
    obtain ⟨x, -, rfl⟩ := List.mem_map.mp hm
    rfl
  exact ⟨hkind, short_of_posted h.sound hm hkind⟩

/-- Two nodes register under the longest host that there is, which is where they dial from. -/
def longestHosts : Registry :=
  (initial {} (.ofList [0, 127])).run
    [.connected ⟨.v6 ⟨List.replicate 8 0xFFFF, rfl⟩, "[ffff::]:40001"⟩,
      .received 0 (.nodeRegisters ⟨Ip.longestLiteral, 7001⟩),
      .received 0 (.nodeRegisters ⟨Ip.longestLiteral, 7002⟩)]

/-- A finger of theirs takes as many bytes as any, and their manifests are received. -/
theorem manifests_fit_longestHosts :
    (longestHosts.setup (some 1)).2 = .ok 2 ∧
    (∀ e ∈ longestHosts.membership.members, e.address.host.utf8ByteSize = 45) ∧
    ∃ manifests, (longestHosts.setup (some 1)).1.mail 0 = longestHosts.mail 0 ++ manifests ∧
      manifests.map (·.encode.length) = [77, 77] ∧
      ∀ m ∈ manifests, Frame.next Frame.defaultLimit m.frame = .message m [] := by
  have h : Occurs {} (.ofList [0, 127]) longestHosts := Occurs.initial.run _
  have hok : (longestHosts.setup (some 1)).2 = .ok 2 := by decide
  obtain ⟨-, hsetup, -, -⟩ := manifests_fit h
  obtain ⟨manifests, hmail, hshort⟩ := hsetup _ _ hok 0
  refine ⟨hok, by decide, manifests, hmail, ?_, fun m hm => ?_⟩
  · have hlengths : ((longestHosts.setup (some 1)).1.mail 0).map (·.encode.length) =
        (longestHosts.mail 0).map (·.encode.length) ++ [77, 77] := by decide +kernel
    rw [hmail, List.map_append] at hlengths
    exact List.append_cancel_left hlengths
  · have hnext := (hshort m hm).2.received Frame.defaultLimit (by decide) []
    rwa [List.append_nil] at hnext

end Registry

end RingOverlay
