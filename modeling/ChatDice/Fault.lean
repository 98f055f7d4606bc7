/-
Arithmetic the library refuses to carry out.

A `Fault` is a broken precondition, not a mistake of the person who asked for a
roll: no text a user can send leads to one, but an expression built by hand can.
-/
namespace ChatDice

/-- A computation stopped because a value it was given breaks a precondition. -/
inductive Fault where
  /-- A die without sides was to be rolled. -/
  | noSides
  /-- The largest possible sum of the dice does not fit in 64 signed bits. -/
  | productOverflow
  /-- The sum of the dice rolled so far does not fit in 64 signed bits. -/
  | sumOverflow
  deriving DecidableEq

namespace Fault

/-- The text that reports a fault. -/
def message : Fault → String
  | noSides => "evaluated an unchecked expression"
  | productOverflow => "attempt to multiply with overflow"
  | sumOverflow => "attempt to add with overflow"

end Fault

end ChatDice
