import Mathlib.Data.List.Basic
import RingOverlay.Proofs.Address.Spelling

/-!
# Address — the text of an IP address reads back

* `Ipv4.parse?_chars`: four decimal parts are read back as the four octets.
* `Ipv6.cutAtGap_groupsChars`: groups hold no double colon, so the one that stands for a run of
  zero groups is found where it was put.
* `Ipv6.eq_gap_split`: the run that `longestGap` names is one of zero groups, which is what the
  reading puts in its place.
* `Ip.parse?_text`: **the text of an address is read back as that address**, and an IPv6 text is
  never taken for an IPv4 one, since it holds a colon.
-/

namespace RingOverlay

/-- What is read back item by item is read back as a list. -/
theorem mapM_map_of_inverse {α β : Type} {f : α → β} {g : β → Option α}
    (h : ∀ a, g (f a) = some a) (as : List α) : (as.map f).mapM g = some as := by
  have hfg : g ∘ f = fun a => pure (id a) := funext h
  rw [List.mapM_map, hfg, List.mapM_pure, List.map_id]
  rfl

/-! ### IPv4 -/

namespace Ipv4

theorem length_decimal (o : UInt8) : (Text.decimal o.toNat).length ≤ 3 := by
  have hlt : o.toNat < 256 := o.toNat_lt
  exact (Nat.length_toDigits_le_iff (by decide) (by decide)).mpr (by omega)

theorem octet?_decimal (o : UInt8) : octet? (Text.decimal o.toNat) = some o := by
  have hvalue : Nat.ofDigitChars 10 (Text.decimal o.toNat) 0 = o.toNat :=
    Nat.ofDigitChars_ten_toDigits
  have hdigits : (Text.decimal o.toNat).all Char.isDigit = true :=
    List.all_eq_true.mpr fun _ => Text.isDigit_of_mem_decimal
  have hzero : (Text.decimal o.toNat).head? = some '0' → (Text.decimal o.toNat).length = 1 := by
    intro h
    rw [Text.eq_zero_of_head_decimal h]
    rfl
  unfold octet?
  rw [hvalue, if_pos ⟨Nat.toDigits_ne_nil, length_decimal o, hdigits, hzero, o.toNat_lt⟩,
    UInt8.ofNat_toNat]

/-- An IPv4 address is read back from its text. -/
theorem parse?_chars (a : Ipv4) : parse? a.chars = some a := by
  have hne : a.octets.map (fun o => Text.decimal o.toNat) ≠ [] := fun h => by
    have := a.length_octets
    rw [List.map_eq_nil_iff.mp h] at this
    cases this
  have hpoint : ∀ part ∈ a.octets.map (fun o => Text.decimal o.toNat), '.' ∉ part := by
    intro part hpart
    obtain ⟨o, -, rfl⟩ := List.mem_map.mp hpart
    exact Text.notMem_decimal (by decide) o.toNat
  unfold parse? chars
  rw [List.splitOn_intercalate '.' hpoint hne, mapM_map_of_inverse octet?_decimal]
  exact dif_pos a.length_octets

/-- The text of an IPv4 address with its points in sight. -/
theorem exists_chars_eq (a : Ipv4) : ∃ w x y z : UInt8, a.chars =
    Text.decimal w.toNat ++ '.' :: (Text.decimal x.toNat ++ '.' :: (Text.decimal y.toNat ++
      '.' :: Text.decimal z.toNat)) := by
  obtain ⟨octets, hlength⟩ := a
  obtain ⟨w, x, y, z, rfl⟩ := List.length_eq_four.mp hlength
  refine ⟨w, x, y, z, ?_⟩
  simp only [chars, List.map_cons, List.map_nil, List.intercalate_cons_cons,
    List.intercalate_singleton, List.append_assoc, List.singleton_append]

theorem point_mem_chars (a : Ipv4) : '.' ∈ a.chars := by
  obtain ⟨w, x, y, z, h⟩ := a.exists_chars_eq
  rw [h]
  exact List.mem_append_right _ List.mem_cons_self

theorem colon_notMem_chars (a : Ipv4) : ':' ∉ a.chars := by
  obtain ⟨w, x, y, z, h⟩ := a.exists_chars_eq
  simp [h, Text.notMem_decimal (show ':'.isDigit = false by decide)]

/-- A group is made of its two octets. -/
theorem group_of_octets (g : UInt16) :
    (g / 256).toUInt8.toUInt16 * 256 + g.toUInt8.toUInt16 = g := by
  apply UInt16.toNat_inj.mp
  have := g.toNat_lt
  simp only [UInt16.toNat_add, UInt16.toNat_mul, UInt8.toNat_toUInt16, UInt16.toNat_toUInt8,
    UInt16.toNat_div, UInt16.reduceToNat]
  omega

/-- The two groups that carry an address give it back. -/
theorem asGroups_ofGroups (g h : UInt16) : (ofGroups g h).asGroups = [g, h] :=
  congrArg₂ (fun g h => [g, h]) (group_of_octets g) (group_of_octets h)

end Ipv4

/-! ### IPv6 groups -/

namespace Ipv6

theorem hexDigit?_digitChar {d : Nat} (hd : d < 16) : hexDigit? d.digitChar = some d := by
  have all : ∀ d : Fin 16, hexDigit? (Nat.digitChar d) = some d.val := by decide
  exact all ⟨d, hd⟩

/-- A number is read back from its hexadecimal digits. -/
theorem hexDigits_toDigits (n : Nat) : ∃ digits, (Nat.toDigits 16 n).mapM hexDigit? = some digits ∧
    digits.foldl (fun n d => 16 * n + d) 0 = n := by
  induction n using Nat.strongRecOn with
  | ind n ih =>
    rcases Nat.lt_or_ge n 16 with hn | hn
    · refine ⟨[n], ?_, by simp⟩
      rw [Nat.toDigits_of_lt_base hn, List.mapM_cons, hexDigit?_digitChar hn]
      rfl
    · obtain ⟨digits, hread, hvalue⟩ := ih (n / 16) (by omega)
      refine ⟨digits ++ [n % 16], ?_, ?_⟩
      · rw [Nat.toDigits_of_base_le (by decide) hn, List.mapM_append, hread, List.mapM_cons,
          hexDigit?_digitChar (Nat.mod_lt n (by decide))]
        rfl
      · rw [List.foldl_append, hvalue]
        exact Nat.div_add_mod n 16

theorem group?_groupChars (g : UInt16) : group? (groupChars g) = some g := by
  have hshort : (groupChars g).length ≤ 4 :=
    (Nat.length_toDigits_le_iff (by decide) (by decide)).mpr g.toNat_lt
  obtain ⟨digits, hread, hvalue⟩ := hexDigits_toDigits g.toNat
  unfold group?
  rw [if_pos ⟨Nat.toDigits_ne_nil, hshort⟩]
  unfold groupChars
  rw [hread]
  exact congrArg some (hvalue.symm ▸ UInt16.ofNat_toNat)

theorem notMem_groupChars {c : Char} (hc : ∀ d < 16, Nat.digitChar d ≠ c) (g : UInt16) :
    c ∉ groupChars g := fun hmem => by
  obtain ⟨d, hd, hchar⟩ := Text.exists_digitChar_of_mem (by decide) hmem
  exact hc d hd hchar

theorem colon_notMem_groupChars (g : UInt16) : ':' ∉ groupChars g :=
  notMem_groupChars (fun _ _ => Nat.digitChar_ne ':' (by decide)) g

/-- A group is no IPv4 address: it has no points. -/
theorem parse?_groupChars_v4 (g : UInt16) : Ipv4.parse? (groupChars g) = none := by
  cases h : Ipv4.parse? (groupChars g) with
  | none => rfl
  | some a =>
    have hpoint := a.point_mem_chars
    rw [Ipv4.chars_of_parse? h] at hpoint
    exact absurd hpoint (notMem_groupChars (fun _ _ => Nat.digitChar_ne '.' (by decide)) g)

theorem groups?_map_groupChars (gs : List UInt16) : groups? (gs.map groupChars) = some gs := by
  induction gs with
  | nil => rfl
  | cons g gs ih =>
    cases gs with
    | nil =>
      simp only [List.map_cons, List.map_nil, groups?, parse?_groupChars_v4, group?_groupChars,
        Option.map_some]
    | cons h gs =>
      rw [List.map_cons] at ih ⊢
      rw [List.map_cons, groups?, group?_groupChars, ih]
      · rfl
      · exact List.cons_ne_nil _ _

@[simp] theorem groupsChars_singleton (g : UInt16) : groupsChars [g] = groupChars g :=
  List.intercalate_singleton

theorem groupsChars_cons_cons (g h : UInt16) (gs : List UInt16) :
    groupsChars (g :: h :: gs) = groupChars g ++ ':' :: groupsChars (h :: gs) := by
  unfold groupsChars
  rw [List.map_cons, List.map_cons, List.intercalate_cons_cons, List.append_assoc,
    List.singleton_append]

/-- Groups start with a digit. -/
theorem exists_groupsChars_cons (g : UInt16) (gs : List UInt16) :
    ∃ c s, c ≠ ':' ∧ groupsChars (g :: gs) = c :: s := by
  have hne : groupChars g ≠ [] := Nat.toDigits_ne_nil
  obtain ⟨c, s, hcs⟩ := List.exists_cons_of_ne_nil hne
  have hc : c ≠ ':' := by
    rintro rfl
    exact colon_notMem_groupChars g (hcs ▸ List.mem_cons_self)
  cases gs with
  | nil => exact ⟨c, s, hc, (groupsChars_singleton g).trans hcs⟩
  | cons h gs =>
    refine ⟨c, s ++ ':' :: groupsChars (h :: gs), hc, ?_⟩
    rw [groupsChars_cons_cons, hcs, List.cons_append]

theorem parts_groupsChars (gs : List UInt16) : parts (groupsChars gs) = gs.map groupChars := by
  cases gs with
  | nil => rfl
  | cons g gs =>
    obtain ⟨c, s, -, hcs⟩ := exists_groupsChars_cons g gs
    have hcolon : ∀ part ∈ (g :: gs).map groupChars, ':' ∉ part := by
      intro part hpart
      obtain ⟨g, -, rfl⟩ := List.mem_map.mp hpart
      exact colon_notMem_groupChars g
    unfold parts
    rw [if_neg (hcs ▸ List.cons_ne_nil c s)]
    exact List.splitOn_intercalate ':' hcolon (List.cons_ne_nil _ _)

/-! ### The double colon -/

theorem cutAtGap_cons {c : Char} {s : List Char} (h : c = ':' → s.head? ≠ some ':') :
    cutAtGap (c :: s) = (cutAtGap s).map fun (before, after) => (c :: before, after) := by
  rw [cutAtGap]
  rintro rest rfl rfl
  exact h rfl rfl

/-- A text without colons is passed over. -/
theorem cutAtGap_append {w : List Char} (hw : ':' ∉ w) (s : List Char) :
    cutAtGap (w ++ s) = (cutAtGap s).map fun (before, after) => (w ++ before, after) := by
  induction w with
  | nil => simp
  | cons c w ih =>
    obtain ⟨hc, hw⟩ := not_or.mp (mt List.mem_cons.mpr hw)
    rw [List.cons_append, cutAtGap_cons fun h => absurd h.symm hc, ih hw, Option.map_map]
    rfl

/-- **Groups hold no double colon**: the first one comes after them. -/
theorem cutAtGap_groupsChars (gs : List UInt16) (s : List Char) :
    cutAtGap (groupsChars gs ++ s) =
      (cutAtGap s).map fun (before, after) => (groupsChars gs ++ before, after) := by
  induction gs with
  | nil => simp [groupsChars]
  | cons g gs ih =>
    cases gs with
    | nil =>
      rw [groupsChars_singleton]
      exact cutAtGap_append (colon_notMem_groupChars g) s
    | cons h gs =>
      -- the colon between two groups is followed by a digit
      have hsingle : (groupsChars (h :: gs) ++ s).head? ≠ some ':' := by
        obtain ⟨c, t, hc, hct⟩ := exists_groupsChars_cons h gs
        rw [hct]
        exact fun heq => hc (Option.some.inj heq)
      rw [groupsChars_cons_cons, List.append_assoc,
        cutAtGap_append (colon_notMem_groupChars g), List.cons_append,
        cutAtGap_cons fun _ => hsingle, ih, Option.map_map, Option.map_map]
      simp [Function.comp_def]

/-! ### The run of zero groups -/

/-- The groups of a run in front are zero. -/
theorem eq_zeros_append {gs : List UInt16} {run : Nat} (h : run ≤ zeroRun gs) :
    gs = List.replicate run 0 ++ gs.drop run := by
  induction run generalizing gs with
  | zero => rfl
  | succ run ih =>
    cases gs with
    | nil => simp [zeroRun] at h
    | cons g gs =>
      unfold zeroRun at h ih
      rw [List.takeWhile_cons] at h
      split at h
      · next hg =>
        rw [List.replicate_succ, List.cons_append, List.drop_succ_cons,
          ← ih (Nat.le_of_succ_le_succ h), eq_of_beq hg]
      · simp at h

theorem longestGap_le_zeroRun (gs : List UInt16) :
    (longestGap gs).2 ≤ zeroRun (gs.drop (longestGap gs).1) := by
  unfold longestGap
  refine List.foldlRecOn _ _ (motive := fun best : Nat × Nat =>
    best.2 ≤ zeroRun (gs.drop best.1)) (Nat.zero_le _) ?_
  intro best hbest start _
  dsimp only
  split
  · exact Nat.le_refl _
  · exact hbest

/-- The run that the double colon replaces is one of zero groups. -/
theorem eq_gap_split (gs : List UInt16) :
    gs = gs.take (longestGap gs).1 ++ (List.replicate (longestGap gs).2 0 ++
      gs.drop ((longestGap gs).1 + (longestGap gs).2)) := by
  rw [← List.drop_drop, ← eq_zeros_append (longestGap_le_zeroRun gs), List.take_append_drop]

/-! ### IPv6 -/

/-- Without a double colon there are eight groups to read. -/
theorem parse?_groupsChars {gs : List UInt16} (h : gs.length = 8) :
    parse? (groupsChars gs) = some ⟨gs, h⟩ := by
  have hcut : cutAtGap (groupsChars gs) = none := by
    rw [← List.append_nil (groupsChars gs), cutAtGap_groupsChars]
    rfl
  unfold parse?
  rw [hcut, parts_groupsChars, groups?_map_groupChars]
  exact dif_pos h

/-- Around a double colon the groups on both sides are read, and zeros in between. -/
theorem parse?_gap (front : List UInt16) (run : Nat) {back : List UInt16} {after : List Char}
    (hback : groups? (parts after) = some back) (hrun : 0 < run)
    (hlength : (front ++ (List.replicate run 0 ++ back)).length = 8) :
    parse? (groupsChars front ++ ':' :: ':' :: after) =
      some ⟨front ++ (List.replicate run 0 ++ back), hlength⟩ := by
  have hsum : front.length + (run + back.length) = 8 := by
    rwa [List.length_append, List.length_append, List.length_replicate] at hlength
  have hzeros : 8 - front.length - back.length = run := by omega
  have hcut : cutAtGap (groupsChars front ++ ':' :: ':' :: after) =
      some (groupsChars front, after) := by
    rw [cutAtGap_groupsChars]
    exact congrArg (fun before => some (before, after)) (List.append_nil _)
  unfold parse?
  rw [hcut]
  simp only [parts_groupsChars, mapM_map_of_inverse group?_groupChars, hback,
    Option.bind_eq_bind, Option.bind_some]
  rw [dif_pos (by omega)]
  simp only [hzeros, List.append_assoc]

/-- The text of an IPv4-mapped address reads back: its last two groups stand as an IPv4 address. -/
theorem groups?_mapped (a : Ipv4) :
    groups? (parts ("ffff:".toList ++ a.chars)) = some (0xFFFF :: a.asGroups) := by
  have hsplit : parts ("ffff:".toList ++ a.chars) = [groupChars 0xFFFF, a.chars] := by
    have := List.splitOn_append_cons_self_of_not_mem (colon_notMem_groupChars 0xFFFF) a.chars
    rw [List.splitOn_eq_singleton a.colon_notMem_chars] at this
    exact this
  rw [hsplit, groups?, group?_groupChars, groups?, a.parse?_chars]
  · rfl
  · exact List.cons_ne_nil _ _

theorem groups_of_mapped? {a : Ipv6} {b : Ipv4} (h : a.mapped? = some b) :
    a.groups = List.replicate 5 0 ++ 0xFFFF :: b.asGroups := by
  unfold mapped? at h
  split at h
  · next g k hgroups =>
    cases h
    rw [hgroups, Ipv4.asGroups_ofGroups]
    rfl
  · cases h

/-- **An IPv6 address is read back from its text**, whichever form the text has. -/
theorem parse?_chars (a : Ipv6) : parse? a.chars = some a := by
  obtain ⟨gs, hlength⟩ := a
  unfold chars
  split
  · -- an IPv4-mapped address
    next b hmapped =>
    obtain rfl : gs = _ := groups_of_mapped? hmapped
    exact parse?_gap [] 5 (groups?_mapped b) (by decide) hlength
  · dsimp only
    split
    · -- a run of zero groups as a double colon
      next hrun =>
      have hread := parse?_gap (gs.take (longestGap gs).1) (longestGap gs).2
        ((congrArg groups? (parts_groupsChars _)).trans (groups?_map_groupChars _))
        (Nat.lt_of_succ_lt hrun) (eq_gap_split gs ▸ hlength)
      simp only [← eq_gap_split gs] at hread
      rwa [List.append_assoc]
    · exact parse?_groupsChars hlength

/-- Every form of the text holds a colon. -/
theorem colon_mem_chars (a : Ipv6) : ':' ∈ a.chars := by
  unfold chars
  split
  · exact List.mem_append_left _ (by decide)
  · dsimp only
    split
    · exact List.mem_append_left _ (List.mem_append_right _ List.mem_cons_self)
    · have hlength := a.length_groups
      obtain ⟨g, rest, hgs⟩ := List.exists_cons_of_length_eq_add_one hlength
      rw [hgs, List.length_cons] at hlength
      obtain ⟨h, rest, rfl⟩ := List.exists_cons_of_length_eq_add_one (Nat.succ.inj hlength)
      rw [hgs, groupsChars_cons_cons]
      exact List.mem_append_right _ List.mem_cons_self

end Ipv6

/-! ### Both families -/

/-- **The text of an IP address is read back as that address.** -/
theorem Ip.parse?_text (a : Ip) : Ip.parse? a.text = some a := by
  unfold Ip.parse? Ip.text
  cases a with
  | v4 a => rw [String.toList_ofList, a.parse?_chars]
  | v6 a =>
    have hno : Ipv4.parse? a.chars = none := by
      cases h : Ipv4.parse? a.chars with
      | none => rfl
      | some b => exact absurd a.colon_mem_chars (Ipv4.chars_of_parse? h ▸ b.colon_notMem_chars)
    rw [String.toList_ofList, hno, a.parse?_chars]
    rfl

end RingOverlay
