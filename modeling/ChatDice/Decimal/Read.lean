/-
Reading decimal numbers.

* **`readUnsigned64?`** — a whole text as a whole number that fits in 64 bits;
* **`readFraction?`** — a whole text as a decimal fraction with an optional sign and an
  optional power of ten, such as `-1.5`, `.5`, `5.` or `1.5e-3`, rounded to the nearest
  floating-point number.

Design notes: the size of the exponent is written by the user, so it is compared with
the range of floating-point numbers before any power of ten is computed.
-/
import ChatDice.Width

namespace ChatDice

/-! ### Digits -/

/-- The digits at the front and everything behind them. -/
def spanDecimal (cs : List Char) : List Char × List Char :=
  cs.span Char.isDigit

/-- The number that a list of decimal digits writes. -/
def decimalValue (digits : List Char) : Nat :=
  Nat.ofDigitChars 10 digits 0

/-! ### Whole numbers -/

/-- A whole number with digits only, after an optional plus if `plus` is set. -/
def readDigitsOnly? (plus : Bool) (cs : List Char) : Option Nat :=
  let digits := if plus && cs.head? == some '+' then cs.tail else cs
  if digits.isEmpty || !digits.all Char.isDigit then none else some (decimalValue digits)

/-- A whole number that fits in 64 unsigned bits. -/
def readUnsigned64? (cs : List Char) : Option Nat :=
  (readDigitsOnly? true cs).filter (· ≤ greatestUInt64)

/-! ### Powers of ten -/

/-- Beyond this power of ten every number is infinite. -/
def hugePower : Int := 310

/-- Below this power of ten every number is zero. -/
def tinyPower : Int := -330

/-- The floating-point number nearest to the number that `digits` write, times a power
of ten. -/
def scaled (digits : List Char) (power : Int) : Float :=
  let significant := digits.dropWhile (· == '0')
  let size := significant.length + power
  if significant.isEmpty || size < tinyPower then 0.0
  else if hugePower < size then 1.0 / 0.0
  else Float.ofScientific (decimalValue significant) (decide (power < 0)) power.natAbs

/-! ### Fractions -/

/-- A decimal fraction as it is written, without its sign. -/
structure Fraction where
  whole : List Char
  fraction : List Char
  exponent : Int

/-- The number nearest to a written fraction. -/
def Fraction.value (f : Fraction) : Float :=
  scaled (f.whole ++ f.fraction) (f.exponent - f.fraction.length)

/-- Split off a sign; true means minus. -/
def splitSign : List Char → Bool × List Char
  | '-' :: rest => (true, rest)
  | '+' :: rest => (false, rest)
  | rest => (false, rest)

/-- The digits behind a point, if a point comes first, and the rest. -/
def splitPoint : List Char → List Char × List Char
  | '.' :: rest => spanDecimal rest
  | rest => ([], rest)

/-- Read the rest of a number as a power of ten; nothing at all means no power. -/
def readPower? : List Char → Option Int
  | [] => some 0
  | c :: rest =>
    if c == 'e' || c == 'E' then
      let (negative, digits) := splitSign rest
      if digits.isEmpty || !digits.all Char.isDigit then none
      else if negative then some (-(decimalValue digits)) else some (decimalValue digits)
    else none

/-- Read an unsigned decimal fraction with at least one digit in front of the power. -/
def readUnsigned? (cs : List Char) : Option Fraction := do
  let (whole, rest) := spanDecimal cs
  let (fraction, rest) := splitPoint rest
  if whole.isEmpty && fraction.isEmpty then none
  else
    let exponent ← readPower? rest
    return ⟨whole, fraction, exponent⟩

/-- Read a decimal fraction. -/
def readFraction? (cs : List Char) : Option Float := do
  let (negative, rest) := splitSign cs
  let f ← readUnsigned? rest
  return if negative then -f.value else f.value

end ChatDice
