import RingOverlay.Proofs.Finger.Assignment
import RingOverlay.Proofs.Registry.Consistency
import RingOverlay.Proofs.Registry.Mail

/-!
# Registry — the manifests of a setup

A setup has three lists side by side: the members, their tables and their addresses.  They are in
one order, so what is zipped from them is one list over the members, in which every member stands
with the table that was laid out for it (`Layout.exists_assigns`).  `HandsOut r table r'` says what
is made of it: manifests that go out, each over the cached connection of the member that it is for,
and the overlay that is kept and listed.

* `handsOut_setup`: a setup that succeeds hands out the tables that it has laid out.
* `manifests_complete`: **every manifest is complete**, whatever has happened to the registry
  before.
-/

namespace RingOverlay.Registry

variable {r r' : Registry} {table : Entry → FingerTable}

/-- From `r` to `r'`, every member is sent its table together with all the identifiers, if its
cached connection is open, and nothing else is sent or published.  The tables are kept and listed,
each with the identifier and the address of its member, and the roll is otherwise the same. -/
structure HandsOut (r : Registry) (table : Entry → FingerTable) (r' : Registry) : Prop where
  ascending : r.membership.ids.Pairwise (· < ·)
  addresses : (r.membership.members.map Entry.address).Nodup
  cached : ∀ m ∈ r.membership.members, ∃ link, r.cache.get? m.address = some link
  mail : ∀ k, r'.mail k = r.mail k ++
    (r.membership.members.filter fun m => r.reachedOver k m.address).map
      fun m => .nodeManifest (table m) r.membership.ids
  reports : r'.reports = r.reports
  roll : r'.roll = { r.roll with
    overlay := some ⟨r.membership.members.map fun m => (m.id, table m),
      r.membership.members.map Entry.address⟩ }
  listing : r'.listTables = Text.unlines (r.membership.members.flatMap fun m =>
    s!"Routing table for node {m.id.text} ({m.address.text}):" :: (table m).listing)

/-- Members that stand beside what is theirs. -/
theorem zip_map_self {β : Type} (members : List Entry) (f : Entry → β) :
    members.zip (members.map f) = members.map fun m => (m, f m) := by
  have hzip : (members.map id).zip (members.map f) = members.map fun m => (m, f m) :=
    List.zip_map'
  rwa [List.map_id] at hzip

/-- The tables of an overlay are listed member by member. -/
theorem listTables_of_overlay {members : List Entry} (h : r.overlay =
    some ⟨members.map fun m => (m.id, table m), members.map Entry.address⟩) :
    r.listTables = Text.unlines (members.flatMap fun m =>
      s!"Routing table for node {m.id.text} ({m.address.text}):" :: (table m).listing) := by
  unfold listTables
  rw [h]
  simp only [List.zip_map', List.flatMap_map]
  rfl

/-- Who is a member has a connection in the cache, open or not. -/
theorem Sound.exists_cached {size : Nat} {ws : List Watch} {s : Roll} (h : Sound size ws s)
    {m : Entry} (hm : m ∈ s.membership.members) : ∃ link, s.cache.get? m.address = some link := by
  have hkey : m.address ∈ s.cache.keys := h.cached.mem_iff.mpr (List.mem_map_of_mem hm)
  exact Option.isSome_iff_exists.mp ((Cache.get?_isSome_iff s.cache m.address).mpr hkey)

theorem handsOut_setup {capacity : Nat} (hr : Sound capacity [] r.roll) {size : Option Nat}
    (hrun : r.phase.isRun = false)
    (htables : Layout.tables r.membership.members (size.getD r.config.defaultTableSize) =
      .ok (r.membership.members.map fun m => (m.id, table m))) :
    r.HandsOut table (r.setup size).1 := by
  have hroll := roll_setup_of_ok hrun htables
  refine ⟨List.pairwise_map.mpr hr.members.ascending, hr.members.addresses,
    fun m hm => hr.exists_cached hm, fun k => ?_, reports_setup r size, hroll,
    listTables_of_overlay (congrArg Roll.overlay hroll)⟩
  rw [mail_setup hrun htables k, zip_map_self, List.filter_map, List.map_map]
  rfl

/-- **Every manifest is complete.**  Whatever has happened to a registry, a setup that succeeds
sends each member, over its cached connection if that is open, the identifiers of all members in
ascending order and the table that was laid out for this very member, and nothing else to anybody.
A table has only other members, under the addresses that they are registered at, and leads to every
one of them; and it is the table that is listed for the member. -/
theorem manifests_complete {config : RegistryConfig} {draws : Draws} (h : Occurs config draws r)
    {size : Option Nat} {nodes : Nat} (hok : (r.setup size).2 = .ok nodes) :
    nodes = r.membership.members.length ∧
    ∃ table, Layout.Assigns r.membership.members (size.getD r.config.defaultTableSize) table ∧
      r.HandsOut table (r.setup size).1 := by
  obtain ⟨hrun, hnodes, ts, htables⟩ := exists_tables_of_setup hok
  obtain ⟨table, rfl, hassigns⟩ := Layout.exists_assigns h.sound.members.nodup_ids htables
  exact ⟨hnodes, table, hassigns, handsOut_setup h.sound hrun htables⟩

/-- Two nodes register over one connection, and a third over another. -/
def threeOverTwo : Registry :=
  (initial {} (.ofList [21, 34, 55])).run
    [.connected ⟨.loopback, "127.0.0.1:40001"⟩, .connected ⟨.loopback, "127.0.0.1:40002"⟩,
      .received 0 (.nodeRegisters ⟨"127.0.0.1", 7001⟩),
      .received 0 (.nodeRegisters ⟨"127.0.0.1", 7002⟩),
      .received 1 (.nodeRegisters ⟨"127.0.0.1", 7003⟩)]

/-- They are sent two manifests over the first connection and one over the other, each for the node
that it is about. -/
theorem manifests_complete_three :
    (threeOverTwo.setup (some 2)).2 = .ok 3 ∧
    ∃ table, Layout.Assigns threeOverTwo.membership.members 2 table ∧
      threeOverTwo.HandsOut table (threeOverTwo.setup (some 2)).1 ∧
      (threeOverTwo.setup (some 2)).1.mail 0 = threeOverTwo.mail 0 ++
        [.nodeManifest (table ⟨21, ⟨"127.0.0.1", 7001⟩⟩) [21, 34, 55],
          .nodeManifest (table ⟨34, ⟨"127.0.0.1", 7002⟩⟩) [21, 34, 55]] ∧
      (threeOverTwo.setup (some 2)).1.mail 1 = threeOverTwo.mail 1 ++
        [.nodeManifest (table ⟨55, ⟨"127.0.0.1", 7003⟩⟩) [21, 34, 55]] := by
  have h : Occurs {} (.ofList [21, 34, 55]) threeOverTwo := Occurs.initial.run _
  have hok : (threeOverTwo.setup (some 2)).2 = .ok 3 := by decide
  have hids : threeOverTwo.membership.ids = [21, 34, 55] := by decide
  have hfirst : (threeOverTwo.membership.members.filter fun m =>
      threeOverTwo.reachedOver 0 m.address) =
      [⟨21, ⟨"127.0.0.1", 7001⟩⟩, ⟨34, ⟨"127.0.0.1", 7002⟩⟩] := by decide
  have hsecond : (threeOverTwo.membership.members.filter fun m =>
      threeOverTwo.reachedOver 1 m.address) = [⟨55, ⟨"127.0.0.1", 7003⟩⟩] := by decide
  obtain ⟨-, table, hassigns, hout⟩ := manifests_complete h hok
  refine ⟨hok, table, hassigns, hout, ?_, ?_⟩
  · rw [hout.mail 0, hids, hfirst]
    rfl
  · rw [hout.mail 1, hids, hsecond]
    rfl

end RingOverlay.Registry
