/-
Rolling expressions and roll sets.

* **`Expression.roll`** — one face for each die, summed, and the modifier added once;
* **`RollSet.roll`** — that many rolls of the same expression, one after another.

Design notes: a roll runs in `RollM`, which keeps the state of the word source also
when it ends in a fault. An expression is rolled whether or not it is within the
limits; a die without sides is a fault even if no die is to be rolled.
-/
import ChatDice.Random.Source
import ChatDice.Expression

namespace ChatDice

/-- A computation that takes words from a source and may end in a fault. -/
abbrev RollM (G : Type) := ExceptT Fault (StateM G)

namespace RollM

def exec {G α : Type} (action : RollM G α) (source : G) : Except Fault α × G :=
  StateT.run (ExceptT.run action) source

end RollM

variable {G : Type} [WordSource G]

/-- Roll `count` dice and add their faces to `sum`. -/
def rollDice (sides : Nat) : (count : Nat) → (sum : Nat) → RollM G Nat
  | 0, sum => pure sum
  | count + 1, sum => do
    let face ← ExceptT.lift (draw sides)
    if sum + face ≤ greatestInt64 then rollDice sides count (sum + face)
    else throw .sumOverflow

def Expression.roll (e : Expression) : RollM G Int64 :=
  if e.sides.toNat = 0 then throw .noSides
  else do
    let sum ← rollDice e.sides.toNat e.count.toNat 0
    return addModifier sum e.modifier

def Expression.rollRepeatedly (e : Expression) : (count : Nat) → RollM G (List Int64)
  | 0 => pure []
  | count + 1 => do
    let total ← e.roll
    let totals ← e.rollRepeatedly count
    return total :: totals

def RollSet.roll (s : RollSet) : RollM G (List Int64) :=
  s.expression.rollRepeatedly s.repeats.toNat

end ChatDice
