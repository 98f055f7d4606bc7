/-
The shortest decimal text of a floating-point number.

* **`Binary.ofFloat`** — the exact value of a positive finite number, and the interval
  of values that are rounded to it;
* **`Binary.shortest?`** — the point of the coarsest decimal grid that has a point in
  that interval, so no decimal with fewer digits reads back as the number;
* **`floatText`** — that decimal written out with all its zeros, never with an
  exponent.

Design notes: all comparisons are made between natural numbers, after multiplying out
the powers of two and of ten.
-/
namespace ChatDice

/-! ### Bits -/

/-- The number of different fractions, which the lowest 52 bits hold. -/
def fractionCount : Nat := 0x10000000000000

/-- The number of different exponents, which the 11 bits above the fraction hold. -/
def exponentCount : Nat := 0x800

/-- The fraction of the number with the given bits. -/
def fractionField (bits : Nat) : Nat :=
  bits % fractionCount

/-- The exponent of the number with the given bits. -/
def exponentField (bits : Nat) : Nat :=
  bits / fractionCount % exponentCount

/-- Whether the number with the given bits has a minus. -/
def isNegative (bits : Nat) : Bool :=
  bits / (fractionCount * exponentCount) % 2 = 1

/-! ### Exact values -/

/-- A positive number as `mantissa` times a power of two. -/
structure Binary where
  mantissa : Nat
  exponent : Int
  /-- Whether the next smaller number lies only half as far away as the next larger. -/
  isNarrowBelow : Bool

namespace Binary

/-- The exact value of the number with the given bits, without its sign. -/
def ofBits (bits : Nat) : Binary :=
  let fraction := fractionField bits
  let exponent := exponentField bits
  if exponent = 0 then ⟨fraction, -1074, false⟩
  else ⟨fractionCount + fraction, (exponent : Int) - 1075, fraction = 0 && 1 < exponent⟩

/-- Four times the mantissa, so that the borders of the interval are whole numbers. -/
def center (x : Binary) : Nat :=
  4 * x.mantissa

/-- The lower border of the values that are rounded to a number, in quarters. -/
def lower (x : Binary) : Nat :=
  if x.isNarrowBelow then x.center - 1 else x.center - 2

/-- The upper border of the values that are rounded to a number, in quarters. -/
def upper (x : Binary) : Nat :=
  x.center + 2

/-- Numerator of a quarter of the number's unit in units of `10 ^ power`. -/
def numerator (x : Binary) (power : Int) : Nat :=
  Nat.pow 2 (x.exponent - 2).toNat * Nat.pow 10 (-power).toNat

/-- Denominator of a quarter of the number's unit in units of `10 ^ power`. -/
def denominator (x : Binary) (power : Int) : Nat :=
  Nat.pow 2 (2 - x.exponent).toNat * Nat.pow 10 power.toNat

/-- Whether `digits * 10 ^ power` is rounded to the number. The borders of the interval
belong to it if the mantissa is even. -/
def accepts (x : Binary) (digits : Nat) (power : Int) : Bool :=
  let point := digits * x.denominator power
  let low := x.lower * x.numerator power
  let high := x.upper * x.numerator power
  if x.mantissa % 2 = 0 then low ≤ point && point ≤ high else low < point && point < high

/-- The better of the two neighbours of the number on the grid of `10 ^ power`, if one
of them is rounded to the number. Of two the nearer counts, and the upper one if they
are equally near. -/
def neighbour? (x : Binary) (power : Int) : Option Nat :=
  let value := x.center * x.numerator power
  let unit := x.denominator power
  let below := value / unit
  match x.accepts below power, x.accepts (below + 1) power with
  | true, true => if 2 * (value % unit) < unit then some below else some (below + 1)
  | true, false => some below
  | false, true => some (below + 1)
  | false, false => none

/-- Search the grids from `10 ^ power` downwards; `fuel` bounds their number. -/
def shortestFrom? (x : Binary) (power : Int) : (fuel : Nat) → Option (Nat × Int)
  | 0 => none
  | fuel + 1 =>
    match x.neighbour? power with
    | some digits => some (digits, power)
    | none => x.shortestFrom? (power - 1) fuel

/-- The coarsest decimal that is rounded to a number, as digits and a power of ten. Zero
lies on every grid, so it has none. -/
def shortest? (x : Binary) : Option (Nat × Int) :=
  if x.mantissa = 0 then none else x.shortestFrom? 309 700

end Binary

/-! ### Texts -/

/-- Write `digits * 10 ^ power` without an exponent. -/
def positional (digits : Nat) (power : Int) : String :=
  let text := Nat.toDigits 10 digits
  if 0 ≤ power then String.ofList (text ++ List.replicate power.toNat '0')
  else
    let places := (-power).toNat
    let padded := List.replicate (places + 1 - text.length) '0' ++ text
    let point := padded.length - places
    String.ofList (padded.take point ++ '.' :: padded.drop point)

/-- The shortest text that reads back as the number with the given bits. -/
def bitsText (bits : Nat) : String :=
  let sign := if isNegative bits then "-" else ""
  if exponentField bits = exponentCount - 1 then
    if fractionField bits = 0 then sign ++ "inf" else "NaN"
  else match (Binary.ofBits bits).shortest? with
    | some (digits, power) => sign ++ positional digits power
    | none => sign ++ "0"

/-- The shortest text that reads back as a floating-point number. -/
def floatText (x : Float) : String :=
  bitsText x.toBits.toNat

end ChatDice
