/-
Numbers of a TOML document.

`readNumber?` reads a whole number in base ten, sixteen, eight or two, or a
floating-point number. A single underscore may stand between two digits. Whole
numbers have to fit in 64 signed bits; a floating-point number may become minus
infinity or zero by rounding, but not infinity.
-/
import ChatDice.Config.Reader
import ChatDice.Config.Value
import ChatDice.Decimal.Read

namespace ChatDice.Toml

/-! ### Digits -/

/-- The digits behind a digit, each with or without an underscore in front. -/
def spanMoreDigits (isDigit : Char → Bool) : List Char → List Char × List Char
  | [] => ([], [])
  | [c] => if isDigit c then ([c], []) else ([], [c])
  | c :: d :: rest =>
    if isDigit c then
      let (digits, left) := spanMoreDigits isDigit (d :: rest)
      (c :: digits, left)
    else if c == '_' && isDigit d then spanMoreDigits isDigit (d :: rest)
    else ([], c :: d :: rest)

/-- Read a run of digits with underscores between them. -/
def readDigits? (isDigit : Char → Bool) : TextReader (List Char)
  | [] => none
  | c :: rest => if isDigit c then some (spanMoreDigits isDigit (c :: rest)) else none

/-- Read a run of decimal digits without superfluous zeros in front. -/
def readWhole? : TextReader (List Char) := fun cs => do
  let (digits, rest) ← readDigits? Char.isDigit cs
  if digits.head? == some '0' && 1 < digits.length then none else some (digits, rest)

/-! ### Whole numbers -/

/-- A whole number as a value, if it fits in 64 signed bits. -/
def integer? (n : Int) : Option Value :=
  if leastInt64 ≤ n ∧ n ≤ greatestInt64 then some (.signed n) else none

/-- The base that a letter behind a zero announces. -/
def base? : Char → Option Nat
  | 'x' => some 16
  | 'o' => some 8
  | 'b' => some 2
  | _ => none

/-- Whether a character is a digit of a base. -/
def isDigitOf (base : Nat) (c : Char) : Bool :=
  match hexDigit? c with
  | some digit => digit < base
  | none => false

/-- Read a whole number whose base is announced by a zero and a letter. -/
def readBased? : TextReader Value
  | '0' :: letter :: rest => do
    let base ← base? letter
    let (digits, rest) ← readDigits? (isDigitOf base) rest
    let n := digits.foldl (fun n c => base * n + (hexDigit? c).getD 0) 0
    return (← integer? n, rest)
  | _ => none

/-! ### Floating-point numbers -/

/-- Read the digits behind a point, if there is a point. -/
def readFractionPart? : TextReader (List Char)
  | '.' :: rest => readDigits? Char.isDigit rest
  | rest => some ([], rest)

/-- Read a power of ten, if there is one. -/
def readExponent? : TextReader (Option Int)
  | [] => some (none, [])
  | c :: rest =>
    if c == 'e' || c == 'E' then do
      let (negative, rest) := splitSign rest
      let (digits, rest) ← readDigits? Char.isDigit rest
      let n : Int := decimalValue digits
      return (some (if negative then -n else n), rest)
    else some (none, c :: rest)

/-- Give a floating-point number its sign. -/
def signedFloat (negative : Bool) (x : Float) : Float :=
  if negative then -x else x

/-- Read an unsigned number in base ten and give it a sign. -/
def readDecimal? (negative : Bool) : TextReader Value := fun cs => do
  let (whole, rest) ← readWhole? cs
  let (fraction, rest) ← readFractionPart? rest
  let (exponent, rest) ← readExponent? rest
  if fraction.isEmpty && exponent.isNone then
    let n : Int := decimalValue whole
    return (← integer? (if negative then -n else n), rest)
  else
    let x := (Fraction.mk whole fraction (exponent.getD 0)).value
    if x.isInf && !negative then none
    else return (.float (signedFloat negative x), rest)

/-- Read the name of infinity or of the number that is none. -/
def readSpecial? (negative : Bool) : TextReader Value
  | 'i' :: 'n' :: 'f' :: rest => some (.float (signedFloat negative (1.0 / 0.0)), rest)
  | 'n' :: 'a' :: 'n' :: rest => some (.float (signedFloat negative (0.0 / 0.0)), rest)
  | _ => none

/-- Read a number. -/
def readNumber? : TextReader Value := fun cs =>
  match readBased? cs with
  | some result => some result
  | none =>
    let (negative, rest) := splitSign cs
    (readSpecial? negative rest).or (readDecimal? negative rest)

end ChatDice.Toml
