import Mathlib.Algebra.Ring.Nat
import RingOverlay.Console.Command
import RingOverlay.Proofs.Text.Numerals
import RingOverlay.Proofs.Text.Words

/-!
# Console — which lines are commands

What a line says depends on its words alone, which are its maximal runs of characters that are not
blank.  `Spelled ws c` says that the words `ws` spell the command `c`, and `Refused ws e` that they
are no command for the reason `e`; both are read off the words without an order of tests.

* `RegistryCommand.spelled_or_refused`, `NodeCommand.spelled_or_refused`: no words are left out.
* `Console.lines_exact`: **a line gives the command that its words spell, and the error that they are
  refused with**, at the registry and at a node.
-/

namespace RingOverlay

open Console

/-- The words spell the command. -/
inductive RegistryCommand.Spelled : List String → RegistryCommand → Prop where
  | listMessagingNodes : Spelled ["list-messaging-nodes"] .listMessagingNodes
  | listRoutingTables : Spelled ["list-routing-tables"] .listRoutingTables
  | setupOverlay : Spelled ["setup-overlay"] (.setupOverlay none)
  | setupOverlaySized {v n} (hv : Text.Numeral v.toList n) (hn : n < 2 ^ 64) :
      Spelled ["setup-overlay", v] (.setupOverlay (some n))
  | start {v} {n : UInt32} (hv : Text.Numeral v.toList n.toNat) : Spelled ["start", v] (.start n)

/-- The first words of the registry's commands. -/
def RegistryCommand.names : List String :=
  ["list-messaging-nodes", "list-routing-tables", "setup-overlay", "start"]

/-- The words are no command to the registry, and this is why. -/
inductive RegistryCommand.Refused : List String → LineError → Prop where
  | empty : Refused [] .empty
  /-- Three words or more, whatever they are. -/
  | long {c v w ws} : Refused (c :: v :: w :: ws) (.tooManyArguments c)
  | listArgument {c v} (hc : c ∈ ["list-messaging-nodes", "list-routing-tables"]) :
      Refused [c, v] (.tooManyArguments c)
  | missingArgument : Refused ["start"] (.missingArgument "start")
  | invalidSize {v} (hv : ∀ n < 2 ^ 64, ¬ Text.Numeral v.toList n) :
      Refused ["setup-overlay", v] (.invalidArgument "setup-overlay" v)
  | invalidCount {v} (hv : ∀ n < 2 ^ 32, ¬ Text.Numeral v.toList n) :
      Refused ["start", v] (.invalidArgument "start" v)
  /-- One word or two, the first of which is no command's. -/
  | unknown {c vs} (hc : c ∉ names) (hvs : vs.length ≤ 1) : Refused (c :: vs) (.unknown c)

/-- The words spell the command. -/
inductive NodeCommand.Spelled : List String → NodeCommand → Prop where
  | printCountersAndDiagnostics :
      Spelled ["print-counters-and-diagnostics"] .printCountersAndDiagnostics
  | exitOverlay : Spelled ["exit-overlay"] .exitOverlay

/-- The words are no command to a node, and this is why. -/
inductive NodeCommand.Refused : List String → LineError → Prop where
  | empty : Refused [] .empty
  /-- Two words or more, whatever they are. -/
  | long {c v ws} : Refused (c :: v :: ws) (.tooManyArguments c)
  | unknown {c} (hc : c ∉ ["print-counters-and-diagnostics", "exit-overlay"]) :
      Refused [c] (.unknown c)

variable {line : String} {ws : List String} {e : LineError}

/-! ### Words -/

theorem Console.runs_iff_wordsOf :
    Text.Runs line.toList (ws.map String.toList) ↔ wordsOf line = ws := by
  rw [Text.runs_iff]
  unfold wordsOf
  constructor
  · intro h
    rw [h, List.map_map]
    simp [Function.comp_def]
  · rintro rfl
    rw [List.map_map]
    simp [Function.comp_def]

/-! ### Arguments -/

theorem Console.argument_of_numeral {bound n : Nat} {command value : String}
    (hv : Text.Numeral value.toList n) (hn : n < bound) : argument bound command value = .ok n := by
  unfold argument
  rw [Text.numeral?_eq_some_iff.mpr ⟨hv, hn⟩]

theorem Console.argument_of_no_numeral {bound : Nat} {command value : String}
    (hv : ∀ n < bound, ¬ Text.Numeral value.toList n) :
    argument bound command value = .error (.invalidArgument command value) := by
  unfold argument
  rw [Text.numeral?_eq_none_iff.mpr hv]

/-- An argument is the numeral of a number below the bound, or of none. -/
theorem Console.numeral_or_none (bound : Nat) (value : String) :
    (∃ n < bound, Text.Numeral value.toList n) ∨ ∀ n < bound, ¬ Text.Numeral value.toList n := by
  by_cases h : ∃ n < bound, Text.Numeral value.toList n
  · exact .inl h
  · exact .inr fun n hn hv => h ⟨n, hn, hv⟩

/-- A result is told by relations that leave no case out. -/
theorem Console.result_iff {α : Type} {r : Except LineError α} {Ok : α → Prop}
    {Error : LineError → Prop} (hok : ∀ a, Ok a → r = .ok a) (herror : ∀ e, Error e → r = .error e)
    (hall : (∃ a, Ok a) ∨ ∃ e, Error e) :
    (∀ a, r = .ok a ↔ Ok a) ∧ ∀ e, r = .error e ↔ Error e := by
  rcases hall with ⟨a, ha⟩ | ⟨e, he⟩
  · have hr := hok a ha
    refine ⟨fun b => ⟨fun hb => ?_, hok b⟩, fun e => ⟨fun he => ?_, herror e⟩⟩
    · obtain rfl := Except.ok.inj (hr.symm.trans hb)
      exact ha
    · cases hr.symm.trans he
  · have hr := herror e he
    refine ⟨fun b => ⟨fun hb => ?_, hok b⟩, fun e' => ⟨fun he' => ?_, herror e'⟩⟩
    · cases hr.symm.trans hb
    · obtain rfl := Except.error.inj (hr.symm.trans he')
      exact he

/-! ### The registry -/

namespace RegistryCommand

variable {c : RegistryCommand} {command : String}

theorem parse_of_spelled (h : Spelled (wordsOf line) c) : parse line = .ok c := by
  unfold parse
  generalize wordsOf line = ws at h
  cases h with
  | listMessagingNodes => rfl
  | listRoutingTables => rfl
  | setupOverlay => rfl
  | @setupOverlaySized v n hv hn =>
    have hread : argument UInt64.size "setup-overlay" v = .ok n := argument_of_numeral hv hn
    change (argument UInt64.size "setup-overlay" v).map _ = _
    rw [hread]
    rfl
  | @start v n hv =>
    change (argument UInt32.size "start" v).map _ = _
    rw [argument_of_numeral hv n.toNat_lt, Except.map, UInt32.ofNat_toNat]

theorem ofWords_of_not_mem (hc : command ∉ names) (value : Option String) :
    ofWords command value = .error (.unknown command) := by
  unfold ofWords
  split
  case h_9 => rfl
  all_goals exact absurd (by decide) hc

theorem parse_of_refused (h : Refused (wordsOf line) e) : parse line = .error e := by
  unfold parse
  generalize wordsOf line = ws at h
  cases h with
  | empty => rfl
  | long => rfl
  | listArgument hc =>
    simp only [List.mem_cons, List.not_mem_nil, or_false] at hc
    rcases hc with rfl | rfl
    · rfl
    · rfl
  | missingArgument => rfl
  | @invalidSize v hv =>
    have hread : argument UInt64.size "setup-overlay" v = .error _ := argument_of_no_numeral hv
    change (argument UInt64.size "setup-overlay" v).map _ = _
    rw [hread]
    rfl
  | @invalidCount v hv =>
    have hread : argument UInt32.size "start" v = .error _ := argument_of_no_numeral hv
    change (argument UInt32.size "start" v).map _ = _
    rw [hread]
    rfl
  | @unknown c vs hc hvs =>
    cases vs with
    | nil => exact ofWords_of_not_mem hc none
    | cons v vs =>
      obtain rfl := List.length_eq_zero_iff.mp (Nat.le_zero.mp (Nat.le_of_succ_le_succ hvs))
      exact ofWords_of_not_mem hc (some v)

/-- No words are left out. -/
theorem spelled_or_refused (ws : List String) : (∃ c, Spelled ws c) ∨ ∃ e, Refused ws e := by
  rcases ws with _ | ⟨command, _ | ⟨v, _ | ⟨w, ws⟩⟩⟩
  · exact .inr ⟨_, .empty⟩
  · by_cases hc : command ∈ names
    · simp only [names, List.mem_cons, List.not_mem_nil, or_false] at hc
      rcases hc with rfl | rfl | rfl | rfl
      · exact .inl ⟨_, .listMessagingNodes⟩
      · exact .inl ⟨_, .listRoutingTables⟩
      · exact .inl ⟨_, .setupOverlay⟩
      · exact .inr ⟨_, .missingArgument⟩
    · exact .inr ⟨_, .unknown hc (Nat.zero_le 1)⟩
  · by_cases hc : command ∈ names
    · simp only [names, List.mem_cons, List.not_mem_nil, or_false] at hc
      rcases hc with rfl | rfl | rfl | rfl
      · exact .inr ⟨_, .listArgument (by decide)⟩
      · exact .inr ⟨_, .listArgument (by decide)⟩
      · rcases numeral_or_none (2 ^ 64) v with ⟨n, hn, hv⟩ | hv
        · exact .inl ⟨_, .setupOverlaySized hv hn⟩
        · exact .inr ⟨_, .invalidSize hv⟩
      · rcases numeral_or_none (2 ^ 32) v with ⟨n, hn, hv⟩ | hv
        · exact .inl ⟨_, .start (n := UInt32.ofNat n) (by rwa [UInt32.toNat_ofNat_of_lt' hn])⟩
        · exact .inr ⟨_, .invalidCount hv⟩
    · exact .inr ⟨_, .unknown hc (Nat.le_refl 1)⟩
  · exact .inr ⟨_, .long⟩

end RegistryCommand

/-! ### A node -/

namespace NodeCommand

variable {c : NodeCommand}

theorem parse_of_spelled (h : Spelled (wordsOf line) c) : parse line = .ok c := by
  unfold parse
  generalize wordsOf line = ws at h
  cases h with
  | printCountersAndDiagnostics => rfl
  | exitOverlay => rfl

theorem parse_of_refused (h : Refused (wordsOf line) e) : parse line = .error e := by
  unfold parse
  generalize wordsOf line = ws at h
  cases h with
  | empty => rfl
  | long =>
    split
    · next h => cases h
    · next h => cases h
    · next h => cases h
    · next h => cases h
    · next h => cases h; rfl
  | unknown hc =>
    split
    · next h => cases h
    · next h => cases h; exact absurd (by decide) hc
    · next h => cases h; exact absurd (by decide) hc
    · next h => cases h; rfl
    · next hmore h => cases h; exact absurd rfl hmore

theorem spelled_or_refused (ws : List String) : (∃ c, Spelled ws c) ∨ ∃ e, Refused ws e := by
  rcases ws with _ | ⟨command, _ | ⟨v, ws⟩⟩
  · exact .inr ⟨_, .empty⟩
  · by_cases hc : command ∈ ["print-counters-and-diagnostics", "exit-overlay"]
    · simp only [List.mem_cons, List.not_mem_nil, or_false] at hc
      rcases hc with rfl | rfl
      · exact .inl ⟨_, .printCountersAndDiagnostics⟩
      · exact .inl ⟨_, .exitOverlay⟩
    · exact .inr ⟨_, .unknown hc⟩
  · exact .inr ⟨_, .long⟩

end NodeCommand

/-- **A line gives the command that its words spell, and otherwise the error that they are refused
with.**  Its words are its maximal runs of characters that are not blank, and they are all that
matters. -/
theorem Console.lines_exact (line : String) :
    (∀ ws, Text.Runs line.toList (ws.map String.toList) ↔ wordsOf line = ws) ∧
    (∀ c, RegistryCommand.parse line = .ok c ↔ RegistryCommand.Spelled (wordsOf line) c) ∧
    (∀ e, RegistryCommand.parse line = .error e ↔ RegistryCommand.Refused (wordsOf line) e) ∧
    (∀ c, NodeCommand.parse line = .ok c ↔ NodeCommand.Spelled (wordsOf line) c) ∧
    (∀ e, NodeCommand.parse line = .error e ↔ NodeCommand.Refused (wordsOf line) e) := by
  obtain ⟨hok, herror⟩ := result_iff (fun _ => RegistryCommand.parse_of_spelled)
    (fun _ => RegistryCommand.parse_of_refused) (RegistryCommand.spelled_or_refused (wordsOf line))
  obtain ⟨hok', herror'⟩ := result_iff (fun _ => NodeCommand.parse_of_spelled)
    (fun _ => NodeCommand.parse_of_refused) (NodeCommand.spelled_or_refused (wordsOf line))
  exact ⟨fun _ => runs_iff_wordsOf, hok, herror, hok', herror'⟩

example : RegistryCommand.parse "\u2003start\t+007 " = .ok (.start 7) := by decide

end RingOverlay
