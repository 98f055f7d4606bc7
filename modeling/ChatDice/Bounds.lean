/-
The limits on what may be rolled.

* **`Expression.violation?`** — the first limit an expression breaks;
* **`RollSet.violation?`** — the same for a set, its expression first;
* **`Expression.violation?_eq_none_iff`, `RollSet.violation?_eq_none_iff`** — what may be
  rolled, said without the order.

The limits are looked at in a fixed order (too many dice, too many sides, too few
sides, repeats), and only the first one broken is named.
-/
import ChatDice.Expression

namespace ChatDice

/-- The most dice in one roll. -/
def maxDice : Nat := 1000

/-- The fewest sides of a die. -/
def minSides : Nat := 2

/-- The most sides of a die. -/
def maxSides : Nat := 100

/-- The most rolls of one set. -/
def maxRepeats : Nat := 30

inductive Violation where
  | tooManyDice
  | tooManySides
  | tooFewSides
  /-- The number of rolls in a set is zero or too large. -/
  | tooManyRepeats
  deriving DecidableEq

/-- The text that tells a user which limit was broken. -/
def Violation.message : Violation → String
  | tooManyDice => "You can't roll more than " ++ maxDice.repr ++ " dice."
  | tooManySides => "Dice can't have more than " ++ maxSides.repr ++ " sides."
  | tooFewSides => "Dice can't have fewer than " ++ minSides.repr ++ " sides."
  | tooManyRepeats => "You can't roll more than " ++ maxRepeats.repr ++ " times."

def Expression.violation? (e : Expression) : Option Violation :=
  if maxDice < e.count.toNat then some .tooManyDice
  else if maxSides < e.sides.toNat then some .tooManySides
  else if e.sides.toNat < minSides then some .tooFewSides
  else none

theorem Expression.violation?_eq_none_iff (e : Expression) :
    e.violation? = none ↔
      e.count.toNat ≤ maxDice ∧ minSides ≤ e.sides.toNat ∧ e.sides.toNat ≤ maxSides := by
  rw [Expression.violation?]
  split
  · next h => exact ⟨nofun, fun ⟨hc, _, _⟩ => absurd h (Nat.not_lt.mpr hc)⟩
  · next hc =>
    split
    · next h => exact ⟨nofun, fun ⟨_, _, hs⟩ => absurd h (Nat.not_lt.mpr hs)⟩
    · next hs =>
      split
      · next h => exact ⟨nofun, fun ⟨_, hm, _⟩ => absurd h (Nat.not_lt.mpr hm)⟩
      · next hm =>
        exact ⟨fun _ => ⟨Nat.not_lt.mp hc, Nat.not_lt.mp hm, Nat.not_lt.mp hs⟩, fun _ => rfl⟩

/-- The first limit that a roll set breaks, if any: those of its expression come
before its own. -/
def RollSet.violation? (s : RollSet) : Option Violation :=
  match s.expression.violation? with
  | some v => some v
  | none =>
    if s.repeats.toNat < 1 ∨ maxRepeats < s.repeats.toNat then some .tooManyRepeats else none

theorem RollSet.violation?_eq_none_iff (s : RollSet) :
    s.violation? = none ↔
      s.expression.violation? = none ∧ 1 ≤ s.repeats.toNat ∧ s.repeats.toNat ≤ maxRepeats := by
  rw [RollSet.violation?]
  cases s.expression.violation? with
  | some v => exact ⟨nofun, fun ⟨h, _, _⟩ => nomatch h⟩
  | none =>
    dsimp only
    split
    · next h => exact ⟨nofun, fun ⟨_, h₁, h₂⟩ => by omega⟩
    · next h => exact ⟨fun _ => ⟨rfl, by omega, by omega⟩, fun _ => rfl⟩

end ChatDice
