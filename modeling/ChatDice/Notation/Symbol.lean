/-
The alphabet of dice notation.

Dice notation uses the ten ASCII digits, a lowercase `d`, `#`, `+` and `-`; every
other byte of a text only separates. `Symbol.ofCode` sorts the codes of bytes and
of characters alike, because all symbols but `other` are ASCII, and in UTF-8 an
ASCII code never occurs inside a longer character.
-/
namespace ChatDice

/-- What a byte or a character means in dice notation. -/
inductive Symbol where
  | digit (value : Fin 10)
  /-- The letter `d` between the number of dice and the number of sides. -/
  | dee
  /-- The mark `#` between the number of rolls and the expression. -/
  | hash
  | plus
  | minus
  /-- Anything that dice notation has no use for. -/
  | other
  deriving DecidableEq

namespace Symbol

def ofCode (code : Nat) : Symbol :=
  if h : 48 ≤ code ∧ code < 58 then digit ⟨code - 48, by omega⟩
  else if code = 100 then dee
  else if code = 35 then hash
  else if code = 43 then plus
  else if code = 45 then minus
  else other

/-- The symbol a byte of UTF-8 text stands for. -/
def ofByte (byte : UInt8) : Symbol :=
  ofCode byte.toNat

/-- The symbol a character stands for. -/
def ofChar (c : Char) : Symbol :=
  ofCode c.toNat

def isDigit : Symbol → Bool
  | digit _ => true
  | _ => false

end Symbol

def byteSymbols (text : String) : List Symbol :=
  text.toByteArray.data.toList.map Symbol.ofByte

def charSymbols (text : String) : List Symbol :=
  text.toList.map Symbol.ofChar

end ChatDice
