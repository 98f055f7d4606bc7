/-
Reading dice notation from the front of a list of symbols.

A reader takes as much as it can from the front and returns what it read together
with the symbols that are left, or nothing if the front does not fit.

* **`readNumeral?`** — a run of digits, up to the first symbol that is none;
* **`readModifier`** — a signed number; a sign without digits behind it stays;
* **`readExpression?`, `readRollSet?`** — the two forms of the notation.
-/
import ChatDice.Notation.Symbol
import ChatDice.Notation.Spelling

namespace ChatDice

/-- A reader returns what the front of its input says and the rest of the input. -/
abbrev Reader (α : Type) := List Symbol → Option (α × List Symbol)

/-- The digits at the front and everything behind them. -/
def spanDigits : List Symbol → List (Fin 10) × List Symbol
  | .digit d :: rest =>
    let (digits, left) := spanDigits rest
    (d :: digits, left)
  | rest => ([], rest)

def readNumeral? : Reader Numeral := fun input =>
  match spanDigits input with
  | ([], _) => none
  | (d :: digits, rest) => some (⟨d :: digits, List.cons_ne_nil d digits⟩, rest)

def expect? (symbol : Symbol) : List Symbol → Option (List Symbol)
  | [] => none
  | s :: rest => if s = symbol then some rest else none

def readSign? : Reader Sign
  | .plus :: rest => some (.plus, rest)
  | .minus :: rest => some (.minus, rest)
  | _ => none

def readSignedNumeral? : Reader SignedNumeral := fun input => do
  let (sign, rest) ← readSign? input
  let (magnitude, rest) ← readNumeral? rest
  return (⟨sign, magnitude⟩, rest)

/-- Read a modifier if there is one. A sign that no digit follows belongs to the
text behind the expression. -/
def readModifier (input : List Symbol) : Option SignedNumeral × List Symbol :=
  match readSignedNumeral? input with
  | some (modifier, rest) => (some modifier, rest)
  | none => (none, input)

def readExpression? : Reader Spelling := fun input => do
  let (count, rest) ← readNumeral? input
  let rest ← expect? .dee rest
  let (sides, rest) ← readNumeral? rest
  let (modifier, rest) := readModifier rest
  return (⟨count, sides, modifier⟩, rest)

def readRollSet? : Reader SetSpelling := fun input => do
  let (repeats, rest) ← readNumeral? input
  let rest ← expect? .hash rest
  let (spelling, rest) ← readExpression? rest
  return (⟨repeats, spelling⟩, rest)

end ChatDice
