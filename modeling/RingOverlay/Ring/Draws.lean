import RingOverlay.Ring.Id

/-!
# Ring — scripted draws

Identifiers, destinations and payloads are drawn from a generator.  A generator is a script: it
yields the scripted values one by one, and after the last of them `0, 1, 2, …` for ever.  So a run
is a function of its script, and a search that draws until it likes the draw can be bounded: past
the script, `n` successive draws meet every residue modulo `n`.
-/

namespace RingOverlay

/-- A generator: the values still scripted, and the number that follows them. -/
structure Draws where
  scripted : List Int
  next : Nat
  deriving DecidableEq, Repr

namespace Draws

/-- The generator that yields `values` first. -/
def ofList (values : List Int) : Draws := ⟨values, 0⟩

/-- One draw, and the generator after it. -/
def draw (d : Draws) : Int × Draws :=
  match d.scripted with
  | v :: rest => (v, { d with scripted := rest })
  | [] => (d.next, { d with next := d.next + 1 })

/-- One draw from `0 .. n`: the drawn value modulo `n`, never negative. -/
def below (n : Nat) (d : Draws) : Nat × Draws :=
  ((d.draw.1 % (n : Int)).toNat, d.draw.2)

/-- One draw of a 32-bit payload: the drawn value itself. -/
def payload (d : Draws) : Int32 × Draws := (Int32.ofInt d.draw.1, d.draw.2)

/-- Draws from `0 .. n` until the draw is a free identifier on the ring, at most `budget` times.
Draws past the ring are skipped. -/
def pickWithin (n : Nat) (free : NodeId → Bool) : (budget : Nat) → Draws → Option (NodeId × Draws)
  | 0, _ => none
  | budget + 1, d =>
    let (v, d') := d.below n
    match NodeId.ofNat? v with
    | some id => if free id then some (id, d') else pickWithin n free budget d'
    | none => pickWithin n free budget d'

/-- Draws from `0 .. n` until the draw is a free identifier on the ring.  The script and `n` more
draws are enough: by then every residue has been met, so `none` says that no draw ever is free. -/
def pick (n : Nat) (free : NodeId → Bool) (d : Draws) : Option (NodeId × Draws) :=
  pickWithin n free (d.scripted.length + n) d

end Draws

end RingOverlay
