/-
Ways to write an expression or a roll set, and what they denote.

A `Spelling` keeps the digits as they were written, leading zeros included, so an
expression has many of them.

* **`Numeral.value`** — the number a run of digits writes, however long it is;
* **`Numeral.saturated`** — the same number cut off at a limit, computed without
  ever going far above the limit;
* **`Numeral.saturated_eq_min`** — both agree up to the limit;
* **`Spelling.expression`, `SetSpelling.rollSet`** — the meaning: each number stops
  at the end of its field;
* **`Spelling.chars`, `SetSpelling.chars`** — the characters of the written form.
-/
import ChatDice.Expression

namespace ChatDice

/-! ### Numerals -/

/-- A run of digits, the most significant first. -/
structure Numeral where
  digits : List (Fin 10)
  nonempty : digits ≠ []
  deriving DecidableEq

namespace Numeral

/-- The number written. -/
def value (n : Numeral) : Nat :=
  n.digits.foldl (fun number d => 10 * number + d.val) 0

/-- The number written, or `limit` if that is smaller. -/
def saturated (limit : Nat) (n : Numeral) : Nat :=
  n.digits.foldl (fun number d => min (10 * number + d.val) limit) 0

/-- Cutting off after each digit is the same as cutting off at the end: a number that has
reached the limit never falls below it again. -/
theorem foldl_saturated (limit : Nat) (digits : List (Fin 10)) (number : Nat) :
    digits.foldl (fun number d => min (10 * number + d.val) limit) (min number limit) =
      min (digits.foldl (fun number d => 10 * number + d.val) number) limit := by
  induction digits generalizing number with
  | nil => rfl
  | cons d digits ih =>
    have hstep : min (10 * min number limit + d.val) limit =
        min (10 * number + d.val) limit := by
      omega
    rw [List.foldl_cons, List.foldl_cons, hstep]
    exact ih (10 * number + d.val)

theorem saturated_eq_min (limit : Nat) (n : Numeral) :
    n.saturated limit = min n.value limit := by
  have h := foldl_saturated limit n.digits 0
  rw [Nat.zero_min] at h
  exact h

def chars (n : Numeral) : List Char :=
  n.digits.map fun d => Nat.digitChar d.val

end Numeral

/-! ### Modifiers -/

inductive Sign where
  | plus
  | minus
  deriving DecidableEq

def Sign.char : Sign → Char
  | plus => '+'
  | minus => '-'

/-- A modifier as it is written: a sign and a number, never one without the other. -/
structure SignedNumeral where
  sign : Sign
  magnitude : Numeral
  deriving DecidableEq

namespace SignedNumeral

/-- The number written. -/
def value (n : SignedNumeral) : Int :=
  match n.sign with
  | .plus => n.magnitude.value
  | .minus => -n.magnitude.value

/-- The number written, or the end of the 64-bit range that lies on its way. -/
def saturated (n : SignedNumeral) : Int64 :=
  match n.sign with
  | .plus => Int64.ofInt (n.magnitude.saturated greatestInt64)
  | .minus => Int64.ofInt (-(n.magnitude.saturated leastInt64.natAbs))

def chars (n : SignedNumeral) : List Char :=
  n.sign.char :: n.magnitude.chars

end SignedNumeral

/-! ### Expressions and roll sets -/

/-- A written expression such as `02d6+3`. -/
structure Spelling where
  count : Numeral
  sides : Numeral
  modifier : Option SignedNumeral
  deriving DecidableEq

/-- The value of a numeral in a field for dice, sides or repeats. -/
def Numeral.field (n : Numeral) : UInt32 :=
  UInt32.ofNat (n.saturated greatestUInt32)

namespace Spelling

def expression (s : Spelling) : Expression where
  count := s.count.field
  sides := s.sides.field
  modifier := match s.modifier with
    | some n => n.saturated
    | none => 0

def chars (s : Spelling) : List Char :=
  s.count.chars ++ 'd' :: s.sides.chars ++ (s.modifier.map SignedNumeral.chars).getD []

end Spelling

/-- A written roll set such as `3#2d6`. -/
structure SetSpelling where
  repeats : Numeral
  spelling : Spelling
  deriving DecidableEq

namespace SetSpelling

def rollSet (s : SetSpelling) : RollSet where
  repeats := s.repeats.field
  expression := s.spelling.expression

def chars (s : SetSpelling) : List Char :=
  s.repeats.chars ++ '#' :: s.spelling.chars

end SetSpelling

end ChatDice
