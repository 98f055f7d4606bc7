/-
Finding dice notation in a text.

* **`Expression.ofText?`** — the expression that a whole text spells;
* **`find?`** — the first expression or roll set anywhere in a text, and as much
  of the text as belongs to it;
* **`locate`** — the same search with the place of what it finds.

Design notes: a search that fails at the first digit of a run fails at each later
digit of that run, since reading from any of them stops at the same symbol. The
search therefore tries one place per run of digits and passes over the rest.
-/
import ChatDice.Notation.Reader

namespace ChatDice

/-! ### Forms -/

inductive Form where
  /-- One expression, as in `2d6+3`. -/
  | single
  /-- An expression rolled several times, as in `3#2d6+3`. -/
  | repeated
  deriving DecidableEq

namespace Form

abbrev Value : Form → Type
  | single => Expression
  | repeated => RollSet

abbrev Spelled : Form → Type
  | single => Spelling
  | repeated => SetSpelling

def read? : (form : Form) → Reader form.Spelled
  | single => readExpression?
  | repeated => readRollSet?

def denote : (form : Form) → form.Spelled → form.Value
  | single => Spelling.expression
  | repeated => SetSpelling.rollSet

def chars : (form : Form) → form.Spelled → List Char
  | single => Spelling.chars
  | repeated => SetSpelling.chars

end Form

/-! ### Searching -/

/-- Something read out of a longer input, with the positions where it starts and
where the input goes on behind it. -/
structure Located (α : Type) where
  start : Nat
  stop : Nat
  value : α

/-- Search an input from the left, trying `read` once in each run of digits.
`position` counts the symbols passed over so far, and `tried` tells that the last
of them was a digit of a run where reading has failed. -/
def locate {α : Type} (read : Reader α) (position : Nat) (tried : Bool) :
    List Symbol → Option (Located α)
  | [] => none
  | symbol :: rest =>
    if symbol.isDigit then
      if tried then locate read (position + 1) true rest
      else match read (symbol :: rest) with
        | some (value, left) => some ⟨position, position + (rest.length + 1 - left.length), value⟩
        | none => locate read (position + 1) true rest
    else locate read (position + 1) false rest

/-- The first place in a text where a form is written, in bytes. -/
def findSpelling? (form : Form) (text : String) : Option (Located form.Spelled) :=
  locate form.read? 0 false (byteSymbols text)

/-- The value of the first occurrence of a form in a text. -/
def find? (form : Form) (text : String) : Option form.Value :=
  (findSpelling? form text).map fun found => form.denote found.value

/-! ### Whole texts -/

/-- The way in which a whole text spells an expression. -/
def Spelling.ofText? (text : String) : Option Spelling :=
  match readExpression? (byteSymbols text) with
  | some (spelling, []) => some spelling
  | _ => none

/-- The expression that a whole text spells. -/
def Expression.ofText? (text : String) : Option Expression :=
  (Spelling.ofText? text).map Spelling.expression

end ChatDice
