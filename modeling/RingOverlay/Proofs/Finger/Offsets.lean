import Mathlib.Algebra.Ring.Nat
import Mathlib.Data.Nat.ModEq
import Mathlib.Data.Nat.Prime.Basic
import Mathlib.Order.Interval.Finset.Nat
import RingOverlay.Proofs.Finger.Tables

/-!
# Finger — which sizes can be laid out

Over `n` nodes the offsets of a table are the powers of two modulo `n`.  An exponent *clashes* if
its offset is zero, so that a node would be its own finger, or that of an earlier exponent, so that
it would have a finger twice.  There are only `n - 1` offsets other than zero, so some exponent
below `n` clashes (`exists_firstClash`); and which way the first one does tells whether `n` is a
power of two (`FirstClash.eq_zero_iff`).

* `clash?_offsets`: the first clash decides what is wrong with a list of offsets, however long.
* `exists_tables`: up to the first clash no two fingers of a table coincide, so it can be built.
* `tables_exact`: **a size can be laid out exactly up to the first clash**, what the tables are, and
  which error any other size gives.
-/

namespace RingOverlay.Layout

variable {nodes size last e : Nat} {members : List Entry} {offs : List Nat}

/-- The offset of entry `e` is zero, or that of an earlier entry. -/
def Clashes (nodes e : Nat) : Prop :=
  2 ^ e % nodes = 0 ∨ ∃ f < e, 2 ^ f % nodes = 2 ^ e % nodes

/-- `e` is the first exponent that clashes. -/
structure FirstClash (nodes e : Nat) : Prop where
  clashes : Clashes nodes e
  first : ∀ f < e, ¬ Clashes nodes f

/-! ### The first clash -/

theorem injOn_of_not_clashes (h : ∀ f < size, ¬ Clashes nodes f) {e f : Nat} (he : e < size)
    (hf : f < size) (heq : 2 ^ e % nodes = 2 ^ f % nodes) : e = f := by
  rcases Nat.lt_trichotomy e f with hlt | heq' | hgt
  · exact absurd (.inr ⟨e, hlt, heq⟩) (h f hf)
  · exact heq'
  · exact absurd (.inr ⟨f, hgt, heq.symm⟩) (h e he)

/-- The offsets of as many exponents as there are nodes cannot all be distinct and not zero. -/
theorem exists_clash (hn : 0 < nodes) : ∃ e < nodes, Clashes nodes e := by
  by_contra hnone
  have hall : ∀ e < nodes, ¬ Clashes nodes e := fun e he hc => hnone ⟨e, he, hc⟩
  have hmaps : ∀ e ∈ Finset.range nodes, 2 ^ e % nodes ∈ Finset.Ico 1 nodes := by
    intro e he
    have hne : 2 ^ e % nodes ≠ 0 := fun h0 => hall e (Finset.mem_range.mp he) (.inl h0)
    exact Finset.mem_Ico.mpr ⟨Nat.pos_of_ne_zero hne, Nat.mod_lt _ hn⟩
  have hcard : (Finset.Ico 1 nodes).card < (Finset.range nodes).card := by
    rw [Nat.card_Ico, Finset.card_range]
    omega
  obtain ⟨e, he, f, hf, hne, heq⟩ := Finset.exists_ne_map_eq_of_card_lt_of_maps_to hcard hmaps
  exact hne (injOn_of_not_clashes hall (Finset.mem_range.mp he) (Finset.mem_range.mp hf) heq)

/-- **There is a first clash**, below the number of nodes. -/
theorem exists_firstClash (hn : 0 < nodes) : ∃ e < nodes, FirstClash nodes e := by
  classical
  obtain ⟨e, he, hc⟩ := exists_clash hn
  have hex : ∃ e, Clashes nodes e := ⟨e, hc⟩
  refine ⟨Nat.find hex, Nat.lt_of_le_of_lt (Nat.find_min' hex hc) he, Nat.find_spec hex, ?_⟩
  intro f hf
  exact Nat.find_min hex hf

/-- Powers of two that are less than the number of nodes do not clash. -/
theorem FirstClash.le_of_pow_lt (hf : FirstClash nodes last) (h : 2 ^ e < nodes) : e < last := by
  by_contra hle
  have hlt : ∀ f ≤ e, 2 ^ f % nodes = 2 ^ f := fun f hfe =>
    Nat.mod_eq_of_lt (Nat.lt_of_le_of_lt (Nat.pow_le_pow_right Nat.two_pos hfe) h)
  have hle : last ≤ e := Nat.not_lt.mp hle
  rcases hf.clashes with hzero | ⟨f, hfl, heq⟩
  · rw [hlt last hle] at hzero
    exact absurd hzero (Nat.two_pow_pos last).ne'
  · rw [hlt last hle, hlt f (hfl.le.trans hle)] at heq
    exact hfl.ne (Nat.pow_right_injective (le_refl 2) heq)

/-- **The first clash is with the node itself** exactly if the number of nodes is a power of two. -/
theorem FirstClash.eq_zero_iff (hf : FirstClash nodes last) :
    2 ^ last % nodes = 0 ↔ nodes.isPowerOfTwo := by
  constructor
  · intro hzero
    obtain ⟨k, -, hk⟩ := (Nat.dvd_prime_pow Nat.prime_two).mp (Nat.dvd_of_mod_eq_zero hzero)
    exact ⟨k, hk⟩
  · rintro ⟨k, rfl⟩
    rcases hf.clashes with hzero | ⟨f, hfl, heq⟩
    · exact hzero
    -- two offsets can only coincide from the exponent `k` on, where all are zero
    · rcases Nat.lt_or_ge last k with hlt | hge
      · have hpow : 2 ^ last < 2 ^ k := Nat.pow_lt_pow_right (by decide) hlt
        have hpow' : 2 ^ f < 2 ^ k := Nat.pow_lt_pow_right (by decide) (hfl.trans hlt)
        rw [Nat.mod_eq_of_lt hpow, Nat.mod_eq_of_lt hpow'] at heq
        exact absurd (Nat.pow_right_injective (le_refl 2) heq) hfl.ne
      · exact Nat.mod_eq_zero_of_dvd (Nat.pow_dvd_pow 2 hge)

/-! ### What is wrong with the offsets -/

theorem mem_offsets {o : Nat} : o ∈ offsets nodes size ↔ ∃ e < size, 2 ^ e % nodes = o := by
  simp only [offsets_eq, List.mem_map, List.mem_range]

theorem offsets_add (nodes a b : Nat) :
    offsets nodes (a + b) = offsets nodes a ++ offsetsFrom nodes b (2 ^ a % nodes) := by
  rw [offsets_eq, offsets_eq, offsetsFrom_eq, List.range_add, List.map_append, List.map_map]
  rfl

/-- What stands first and has nothing wrong with it has been seen when the rest is looked at. -/
theorem clash?_append {seen as : List Nat} (bs : List Nat) (h : clash? seen as = none) :
    clash? seen (as ++ bs) = clash? (as.reverse ++ seen) bs := by
  induction as generalizing seen with
  | nil => rfl
  | cons a as ih =>
    simp only [clash?] at h
    split at h
    · cases h
    · next hzero =>
      split at h
      · cases h
      · next hseen =>
        rw [List.cons_append, clash?, if_neg hzero, if_neg hseen, ih h, List.reverse_cons,
          List.append_assoc, List.singleton_append]

/-- Nothing is wrong with offsets of which none clashes. -/
theorem clash?_offsets_of_not_clashes (h : ∀ f < size, ¬ Clashes nodes f) :
    clash? [] (offsets nodes size) = none := by
  induction size with
  | zero => rfl
  | succ size ih =>
    have hlast := h size (Nat.lt_succ_self size)
    have hzero : ¬ 2 ^ size % nodes = 0 := fun h0 => hlast (.inl h0)
    have hseen : 2 ^ size % nodes ∉ (offsets nodes size).reverse ++ [] := by
      rw [List.append_nil, List.mem_reverse, mem_offsets]
      exact fun hmem => hlast (.inr hmem)
    rw [offsets_add, clash?_append _ (ih fun f hf => h f (Nat.lt_succ_of_lt hf)), offsetsFrom,
      clash?, if_neg hzero, if_neg hseen]
    rfl

/-- **The first clash decides** what is wrong with the offsets of any number of entries. -/
theorem clash?_offsets (hf : FirstClash nodes last) (size : Nat) :
    clash? [] (offsets nodes size) =
      if size ≤ last then none else some (if 2 ^ last % nodes = 0 then .own else .again) := by
  split
  · next hle => exact clash?_offsets_of_not_clashes fun f hlt => hf.first f (by omega)
  · next hgt =>
    obtain ⟨k, rfl⟩ : ∃ k, size = last + (k + 1) := ⟨size - last - 1, by omega⟩
    rw [offsets_add, clash?_append _ (clash?_offsets_of_not_clashes hf.first), offsetsFrom, clash?]
    split
    · rfl
    · next hzero =>
      have hseen : 2 ^ last % nodes ∈ (offsets nodes last).reverse ++ [] := by
        rw [List.append_nil, List.mem_reverse, mem_offsets]
        exact hf.clashes.resolve_left hzero
      rw [if_pos hseen]

/-! ### Tables by offsets -/

/-- What refuses the size of a table whose offsets clash. -/
def Clash.refusal (size nodes : Nat) : Clash → LayoutError
  | own => .selfEntry size nodes
  | again => .repeatedEntry size nodes

/-- The tables that a list of offsets lays out; `size` is the size that was asked for. -/
def tablesBy (members : List Entry) (size : Nat) (offs : List Nat) :
    Except LayoutError (List (NodeId × FingerTable)) :=
  match clash? [] offs with
  | some clash => .error (clash.refusal size members.length)
  | none => tablesFrom members offs 0 members

theorem tables_eq (hn : 2 ≤ members.length) (hs : size ≠ 0) :
    tables members size =
      tablesBy members size (offsets members.length (min size members.length)) := by
  match members with
  | m :: m' :: ms =>
    simp only [tables, if_neg hs, tablesBy]
    cases clash? [] (offsets (m :: m' :: ms).length (min size (m :: m' :: ms).length)) with
    | none => rfl
    | some clash => cases clash <;> rfl

/-- The fingers of a member are at the offsets from its position, in their order. -/
theorem fingers_eq_map (hn : 0 < members.length) (offs : List Nat) (i : Nat) :
    fingers members offs i =
      offs.map fun o => members.get ⟨(i + o) % members.length, Nat.mod_lt _ hn⟩ := by
  rw [fingers, ← List.filterMap_eq_map]
  refine List.filterMap_congr fun o _ => ?_
  exact List.getElem?_eq_getElem (Nat.mod_lt _ hn)

/-- Distinct offsets less than the number of members lead to distinct members. -/
theorem nodup_fingers (hd : (members.map Entry.id).Nodup) (hnodup : offs.Nodup)
    (hlt : ∀ o ∈ offs, o < members.length) (i : Nat) :
    ((fingers members offs i).map Entry.id).Nodup := by
  rw [List.Nodup, List.pairwise_map, fingers, List.pairwise_filterMap]
  refine hnodup.imp_of_mem fun {o o'} ho ho' hne a ha b hb hid => hne ?_
  have hposition : (i + o) % members.length = (i + o') % members.length := by
    have hi : (i + o) % members.length < (members.map Entry.id).length := by
      rw [List.length_map]
      exact (List.getElem?_eq_some_iff.mp ha).1
    refine (List.getElem?_inj hi hd).mp ?_
    rw [List.getElem?_map, List.getElem?_map, ha, hb, Option.map_some, Option.map_some, hid]
  have hmod : o % members.length = o' % members.length :=
    Nat.ModEq.add_left_cancel' i hposition
  rwa [Nat.mod_eq_of_lt (hlt o ho), Nat.mod_eq_of_lt (hlt o' ho')] at hmod

/-- Tables can be built where nobody is a finger twice. -/
theorem exists_tablesFrom (h : ∀ i, ((fingers members offs i).map Entry.id).Nodup) (p : Nat)
    (ms : List Entry) : ∃ ts, tablesFrom members offs p ms = .ok ts := by
  induction ms generalizing p with
  | nil => exact ⟨[], rfl⟩
  | cons m ms ih =>
    obtain ⟨ts, hts⟩ := ih (p + 1)
    simp only [tablesFrom, FingerTable.ofEntries_of_nodup (h p), hts]
    exact ⟨_, rfl⟩

/-! ### Tables of a size -/

/-- **Up to the first clash** a size can be laid out. -/
theorem exists_tables (hn : 2 ≤ members.length) (hd : (members.map Entry.id).Nodup)
    (hs : size ≠ 0) (hf : FirstClash members.length last) (hle : size ≤ last) :
    ∃ ts, tables members size = .ok ts := by
  have hfree : ∀ f < min size members.length, ¬ Clashes members.length f :=
    fun f hlt => hf.first f (by omega)
  have hnodup : (offsets members.length (min size members.length)).Nodup := by
    rw [offsets_eq]
    refine List.nodup_range.map_on fun e he f hf heq => ?_
    exact injOn_of_not_clashes hfree (List.mem_range.mp he) (List.mem_range.mp hf) heq
  have hlt : ∀ o ∈ offsets members.length (min size members.length), o < members.length := by
    intro o ho
    obtain ⟨e, -, rfl⟩ := mem_offsets.mp ho
    exact Nat.mod_lt _ (by omega)
  obtain ⟨ts, hts⟩ := exists_tablesFrom (nodup_fingers hd hnodup hlt) 0 members
  refine ⟨ts, ?_⟩
  rw [tables_eq hn hs, tablesBy, clash?_offsets_of_not_clashes hfree]
  exact hts

/-- One table of `size` fingers for every member, in the order of the members and labelled with
their identifiers; finger `e` is the member `2 ^ e` positions further along, around the end. -/
structure Doubling (members : List Entry) (size : Nat) (ts : List (NodeId × FingerTable)) :
    Prop where
  labels : ts.map Prod.fst = members.map Entry.id
  sizes : ∀ p ∈ ts, p.2.size = size
  fingers : ∀ i p, ts[i]? = some p → ∀ e < size,
    p.2.entries[e]? = members[(i + 2 ^ e) % members.length]?

theorem doubling_of_tables {ts : List (NodeId × FingerTable)} (hn : 2 ≤ members.length)
    (hle : size ≤ members.length) (h : tables members size = .ok ts) :
    Doubling members size ts := by
  obtain ⟨-, hlabels, hall⟩ := tables_eq_ok hn h
  rw [Nat.min_eq_left hle] at hall
  have hpos : 0 < members.length := by omega
  have hentries : ∀ i p, ts[i]? = some p →
      p.2.entries = Layout.fingers members (offsets members.length size) i := by
    intro i p hp
    have hlength : ts.length = members.length := by simpa using congrArg List.length hlabels
    have hi : i < members.length := hlength ▸ (List.getElem?_eq_some_iff.mp hp).1
    obtain ⟨t, ht, hes⟩ := hall i _ (List.getElem?_eq_getElem hi)
    obtain rfl := Option.some.inj (hp.symm.trans ht)
    exact hes
  refine ⟨hlabels, fun p hp => ?_, fun i p hp e he => ?_⟩
  · obtain ⟨i, hi⟩ := List.getElem?_of_mem hp
    rw [FingerTable.size, hentries i p hi, fingers_eq_map hpos, List.length_map, offsets_eq,
      List.length_map, List.length_range]
  · simp only [hentries i p hp, fingers_eq_map hpos, offsets_eq, List.getElem?_map,
      List.getElem?_range he, Option.map_some, Nat.add_mod_mod]
    exact (List.getElem?_eq_getElem (Nat.mod_lt _ hpos)).symm

/-- **Past the first clash** no size can be laid out, for the reason that it tells. -/
theorem tablesBy_of_lt {count : Nat} (hf : FirstClash members.length last) (h : last < count) :
    tablesBy members size (offsets members.length count) =
      .error ((if 2 ^ last % members.length = 0 then Clash.own else .again).refusal size
        members.length) := by
  rw [tablesBy, clash?_offsets hf, if_neg (Nat.not_le.mpr h)]

/-- **A size can be laid out exactly up to the first clash** of its offsets, which comes before
there are as many as members.  Then every member has a table of that size, of the members at the
doubling distances.  Any other size is refused for the node's own entry if the number of members is
a power of two, and for a repeated one if not.  To look at no more offsets than there are members
changes nothing. -/
theorem tables_exact (hn : 2 ≤ members.length) (hd : (members.map Entry.id).Nodup)
    (hs : 1 ≤ size) :
    ∃ last, FirstClash members.length last ∧ last ≤ members.length - 1 ∧
      ((∃ ts, tables members size = .ok ts) ↔ size ≤ last) ∧
      (∀ ts, tables members size = .ok ts → Doubling members size ts) ∧
      (∀ e, tables members size = .error e →
        (members.length.isPowerOfTwo ∧ e = .selfEntry size members.length) ∨
        (¬ members.length.isPowerOfTwo ∧ e = .repeatedEntry size members.length)) ∧
      tables members size = tablesBy members size (offsets members.length size) := by
  have hpos : 0 < members.length := by omega
  have hs : size ≠ 0 := by omega
  obtain ⟨last, hlt, hf⟩ := exists_firstClash hpos
  have heq := tables_eq hn hs
  -- no more offsets are looked at than there are members, of which the first clash is one
  have hcap : tables members size = tablesBy members size (offsets members.length size) := by
    rcases Nat.lt_or_ge last size with hgt | hle
    · rw [heq, tablesBy_of_lt hf (by omega), tablesBy_of_lt hf hgt]
    · rw [heq, Nat.min_eq_left (by omega)]
  have hok : (∃ ts, tables members size = .ok ts) ↔ size ≤ last := by
    constructor
    · rintro ⟨ts, hts⟩
      by_contra hgt
      rw [hcap, tablesBy_of_lt hf (Nat.not_le.mp hgt)] at hts
      cases hts
    · exact exists_tables hn hd hs hf
  refine ⟨last, hf, by omega, hok, fun ts hts => ?_, fun e he => ?_, hcap⟩
  · have hle : size ≤ last := hok.mp ⟨ts, hts⟩
    exact doubling_of_tables hn (by omega) hts
  · have hgt : last < size := by
      by_contra hle
      obtain ⟨ts, hts⟩ := hok.mpr (Nat.not_lt.mp hle)
      cases hts.symm.trans he
    rw [hcap, tablesBy_of_lt hf hgt] at he
    rw [← hf.eq_zero_iff, ← Except.error.inj he]
    split
    · next hzero => exact .inl ⟨hzero, rfl⟩
    · next hzero => exact .inr ⟨hzero, rfl⟩

/-- Five members, at every seventh identifier. -/
def five : List Entry :=
  [⟨2, ⟨"127.0.0.1", 7000⟩⟩, ⟨9, ⟨"127.0.0.1", 7001⟩⟩, ⟨16, ⟨"127.0.0.1", 7002⟩⟩,
    ⟨23, ⟨"127.0.0.1", 7003⟩⟩, ⟨30, ⟨"127.0.0.1", 7004⟩⟩]

/-- Over five members the offsets of four entries are 1, 2, 4 and 3; over four of them the third
offset is already zero, also if an enormous table is asked for. -/
theorem tables_exact_five :
    (∃ ts, tables five 4 = .ok ts ∧ Doubling five 4 ts) ∧
    ∃ e, tables (five.take 4) 18446744073709551615 = .error e ∧
      e = .selfEntry 18446744073709551615 4 := by
  constructor
  · have hok : (tables five 4).isOk = true := by decide
    have hn : 2 ≤ five.length := by decide
    have hs : 1 ≤ 4 := by decide
    obtain ⟨-, -, -, -, hdoubling, -⟩ := tables_exact hn (by decide) hs
    cases ht : tables five 4 with
    | error e => simp [ht, Except.isOk, Except.toBool] at hok
    | ok ts => exact ⟨ts, rfl, hdoubling ts ht⟩
  · have hn : 2 ≤ (five.take 4).length := by decide
    have hs : 1 ≤ 18446744073709551615 := by decide
    obtain ⟨last, -, hlast, hok, -, herror, -⟩ := tables_exact hn (by decide) hs
    cases ht : tables (five.take 4) 18446744073709551615 with
    | ok ts => exact absurd ((hok.mp ⟨ts, ht⟩).trans hlast) (by decide)
    | error e =>
      refine ⟨e, rfl, ?_⟩
      rcases herror e ht with ⟨-, he⟩ | ⟨hpow, -⟩
      · exact he
      · exact absurd ⟨2, rfl⟩ hpow

end RingOverlay.Layout
