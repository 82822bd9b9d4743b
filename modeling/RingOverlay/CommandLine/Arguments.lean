import RingOverlay.Config
import RingOverlay.Text.Decimal

/-!
# Command line — arguments

The arguments name a role and its settings.  Options are long (`--port 5000`, `--port=5000`) or
short (`-p 5000`, `-p5000`, `-p=5000`), and short flags may share a dash.  `--log` may stand before
or after the role.  No option may be given twice at one place, and an option's value may not look
like an option.  Two dashes end the options; as there is nothing but options, they may only stand
last.
-/

namespace RingOverlay.CommandLine

/-- What the process is to be. -/
inductive Role where
  | registry (port : UInt16) (ringSize tableSize quiescence : Nat)
  | node (registryHost : String) (registryPort : UInt16)
  deriving DecidableEq, Repr

/-- A complete command line. -/
structure Invocation where
  log : Bool
  role : Role
  deriving DecidableEq, Repr

/-- Why arguments lead to no process. -/
inductive Stop where
  /-- The arguments are wrong. -/
  | wrong
  /-- The operator asked for help. -/
  | help
  /-- The operator asked for the version. -/
  | version
  deriving DecidableEq, Repr

/-! ### Options -/

/-- The options there are. -/
inductive Opt where
  | log
  | help
  | version
  | port
  | ringSize
  | tableSize
  | quiescence
  | registryHost
  | registryPort
  deriving DecidableEq, Repr

/-- Where an option stands: before the role, or after one. -/
inductive Place where
  | top
  | registry
  | node
  deriving DecidableEq, Repr

/-- The long options of a place. -/
def Place.long? : Place → String → Option Opt
  | _, "log" => some .log
  | _, "help" => some .help
  | .top, "version" => some .version
  | .registry, "port" => some .port
  | .registry, "ring-size" => some .ringSize
  | .registry, "table-size" => some .tableSize
  | .registry, "quiescence-ms" => some .quiescence
  | .node, "registry-host" => some .registryHost
  | .node, "registry-port" => some .registryPort
  | _, _ => none

/-- The short options of a place. -/
def Place.short? : Place → Char → Option Opt
  | _, 'l' => some .log
  | _, 'h' => some .help
  | .top, 'V' => some .version
  | .registry, 'p' => some .port
  | _, _ => none

/-- Whether an option takes a value. -/
def Opt.takesValue : Opt → Bool
  | log | help | version => false
  | _ => true

/-- A number with one optional sign, of either kind; only zero may be negative. -/
def signed? (bound : Nat) (s : String) : Option Nat :=
  match s.toList with
  | '-' :: ds =>
    if ds.head? = some '+' then none else (Text.numeral? 1 ds)
  | cs => Text.numeral? bound cs

/-- A number with one optional plus sign. -/
def plain? (bound : Nat) (s : String) : Option Nat := Text.numeral? bound s.toList

/-- Whether a value is one that the option takes. -/
def Opt.admits : Opt → String → Bool
  | .port, v => (signed? UInt16.size v).isSome
  | .registryPort, v => (signed? UInt16.size v).isSome
  | .ringSize, v => (signed? UInt32.size v).isSome
  | .tableSize, v => (plain? UInt64.size v).isSome
  | .quiescence, v => (plain? UInt64.size v).isSome
  | _, _ => true

/-- The options given so far, with their values. -/
abbrev Given := List (Opt × String)

/-- Gives an option, which must be new and have a value it takes. -/
def give (given : Given) (o : Opt) (value : String) : Except Stop Given :=
  match o with
  | .help => .error .help
  | .version => .error .version
  | _ =>
    if (given.lookup o).isSome then .error .wrong
    else if o.admits value then .ok ((o, value) :: given)
    else .error .wrong

/-- The value attached to a short option; an equals sign in front is not part of it. -/
def attached : List Char → List Char
  | '=' :: cs => cs
  | cs => cs

/-- A cluster of short options.  Besides the options given, says which option still waits for a
value. -/
def cluster (place : Place) : List Char → Given → Except Stop (Given × Option Opt)
  | [], given => .ok (given, none)
  | c :: cs, given =>
    match place.short? c with
    | none => .error .wrong
    | some o =>
      if o.takesValue then
        if cs = [] then .ok (given, some o)
        else (give given o (String.ofList (attached cs))).map fun g => (g, none)
      else
        match give given o "" with
        | .ok given => if cs.head? = some '=' then .error .wrong else cluster place cs given
        | .error e => .error e

/-- Whether an argument looks like an option. -/
def looksLikeOption (arg : List Char) : Bool := arg.head? == some '-' && arg.length != 1

/-- The text before and after the first equals sign. -/
def splitEquals (cs : List Char) : List Char × Option (List Char) :=
  (cs.takeWhile (· != '='), (cs.dropWhile (· != '=')).tail?)

/-- One argument that looks like an option; says which option still waits for a value. -/
def option (place : Place) (arg : List Char) (given : Given) :
    Except Stop (Given × Option Opt) :=
  match arg with
  | '-' :: '-' :: name =>
    let (name, value) := splitEquals name
    match place.long? (String.ofList name), value with
    | none, _ => .error .wrong
    | some o, none =>
      if o.takesValue then .ok (given, some o) else (give given o "").map fun g => (g, none)
    | some o, some v =>
      if o.takesValue then (give given o (String.ofList v)).map fun g => (g, none)
      else .error .wrong
  | _ => cluster place arg.tail given

/-- The options of a place: up to the first argument that is none, and what is left from there. -/
def options (place : Place) : List String → Given → Except Stop (Given × List String)
  | [], given => .ok (given, [])
  | "--" :: args, given => if args = [] then .ok (given, []) else .error .wrong
  | arg :: args, given =>
    if looksLikeOption arg.toList then
      match option place arg.toList given with
      | .error e => .error e
      | .ok (given, none) => options place args given
      | .ok (given, some o) =>
        match args with
        | [] => .error .wrong
        | value :: args =>
          if looksLikeOption value.toList then .error .wrong
          else
            match give given o value with
            | .error e => .error e
            | .ok given => options place args given
    else .ok (given, arg :: args)

/-! ### Roles -/

/-- A port that was given. -/
def portOf (given : Given) (o : Opt) : Except Stop UInt16 :=
  match (given.lookup o).bind (signed? UInt16.size) with
  | some n => .ok (UInt16.ofNat n)
  | none => .error .wrong

/-- A number that was given, or its default. -/
def numberOf (given : Given) (o : Opt) (read : String → Option Nat) (default : Nat) : Nat :=
  ((given.lookup o).bind read).getD default

/-- The settings of a registry. -/
def registryRole (given : Given) : Except Stop Role := do
  let port ← portOf given .port
  let defaults : RegistryConfig := {}
  pure (.registry port (numberOf given .ringSize (signed? UInt32.size) defaults.ringSize)
    (numberOf given .tableSize (plain? UInt64.size) defaults.defaultTableSize)
    (numberOf given .quiescence (plain? UInt64.size) defaults.quiescence))

/-- The settings of a node. -/
def nodeRole (given : Given) : Except Stop Role := do
  let port ← portOf given .registryPort
  match given.lookup .registryHost with
  | some host => pure (.node host port)
  | none => .error .wrong

/-- The settings after a role, which nothing else may follow. -/
def roleOf (place : Place) (settings : Given → Except Stop Role) (log : Bool)
    (args : List String) : Except Stop Invocation :=
  match options place args [] with
  | .error e => .error e
  | .ok (given, []) => (settings given).map fun role => ⟨log || (given.lookup .log).isSome, role⟩
  | .ok (_, _ :: _) => .error .wrong

/-- The invocation that arguments describe. -/
def parse (args : List String) : Except Stop Invocation :=
  match options .top args [] with
  | .error e => .error e
  | .ok (given, rest) =>
    let log := (given.lookup .log).isSome
    match rest with
    | "registry" :: args => roleOf .registry registryRole log args
    | "node" :: args => roleOf .node nodeRole log args
    | ["help"] => .error .help
    | ["help", topic] => .error (if topic ∈ ["registry", "node", "help"] then .help else .wrong)
    | _ => .error .wrong

end RingOverlay.CommandLine
