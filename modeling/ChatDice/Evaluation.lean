/-
Results of rolls and the text that reports them.

An `Evaluation` pairs what was rolled with the totals that came up, in the order
they were rolled. `Evaluation.text` writes the expression in brackets as a header
and the totals behind it, so a set differs from a single roll only in how many
totals follow.
-/
import ChatDice.Expression

namespace ChatDice

inductive Evaluation where
  | single (expression : Expression) (total : Int64)
  | repeated (set : RollSet) (totals : List Int64)
  deriving DecidableEq

namespace Evaluation

def expression : Evaluation → Expression
  | single e _ => e
  | repeated s _ => s.expression

def totals : Evaluation → List Int64
  | single _ t => [t]
  | repeated _ ts => ts

/-- The report of a roll: the expression in brackets, then its totals. -/
def text (v : Evaluation) : String :=
  "[" ++ v.expression.text ++ "] " ++ ", ".intercalate (v.totals.map (·.toInt.repr))

end Evaluation

end ChatDice
