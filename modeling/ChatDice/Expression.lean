/-
Dice expressions such as `2d6+3` and repeated rolls of one such as `3#2d6+3`.

* **`Expression`** — so many dice of so many sides, and a modifier added once;
* **`Expression.least`, `Expression.greatest`** — the range its total lies in;
* **`Expression.text`, `RollSet.text`** — the canonical written forms.

The fields are as wide as the numbers that can be written for them; which of
these expressions may be rolled is the business of `ChatDice.Bounds`.
-/
import ChatDice.Fault
import ChatDice.Width

namespace ChatDice

/-! ### Expressions -/

/-- Roll `count` dice of `sides` sides each and add `modifier` to their sum. -/
structure Expression where
  count : UInt32
  sides : UInt32
  modifier : Int64
  deriving DecidableEq

/-- Roll `expression` afresh `repeats` times. -/
structure RollSet where
  repeats : UInt32
  expression : Expression
  deriving DecidableEq

/-- Add a modifier to a sum of dice; a result outside 64 signed bits stops at the
nearer end. -/
def addModifier (sum : Nat) (modifier : Int64) : Int64 :=
  Int64.ofIntClamp (sum + modifier.toInt)

namespace Expression

/-- The total when every die shows a one. -/
def least (e : Expression) : Int64 :=
  addModifier e.count.toNat e.modifier

/-- The total when every die shows its highest face. The sum of the dice itself
has to fit; only adding the modifier stops at the ends. -/
def greatest (e : Expression) : Except Fault Int64 :=
  let sum := e.count.toNat * e.sides.toNat
  if sum ≤ greatestInt64 then .ok (addModifier sum e.modifier) else .error .productOverflow

end Expression

/-! ### Written forms -/

/-- A modifier as it stands after the dice: with its sign, and nothing for zero. -/
def signedModifier (modifier : Int64) : String :=
  if 0 < modifier.toInt then "+" ++ modifier.toInt.repr
  else if modifier.toInt < 0 then modifier.toInt.repr
  else ""

def Expression.text (e : Expression) : String :=
  e.count.toNat.repr ++ "d" ++ e.sides.toNat.repr ++ signedModifier e.modifier

def RollSet.text (s : RollSet) : String :=
  s.repeats.toNat.repr ++ "#" ++ s.expression.text

end ChatDice
