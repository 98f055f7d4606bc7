/-
Dates and times of a TOML document.

A `Moment` is a date of the calendar, a time of the day, or both; with both it may have an offset
from universal time. No setting is a moment, but a document may hold one anywhere.

* **`Date`**, **`Time`**, **`Offset`** — the parts of a moment, as they exist on a calendar and on a
  clock;
* **`Moment.chars`** — the normal form of a moment: a `T` between date and time, and decimals of the
  second only as far as they are needed;
* **`readMoment?`** — reads a moment, also with a small letter or a blank in its middle, with a small
  letter at its end, and with more decimals, which are cut off behind the ninth;
* **`Moment.toValue`** — a moment as a configuration value, a dictionary with its normal form.
-/
import ChatDice.Config.Reader
import ChatDice.Config.Value
import ChatDice.Decimal.Read

namespace ChatDice.Toml

/-! ### Calendar and clock -/

def isLeapYear (year : Nat) : Bool :=
  year % 4 == 0 && (year % 100 != 0 || year % 400 == 0)

def daysInMonth (year : Nat) : (month : Nat) → Nat
  | 2 => if isLeapYear year then 29 else 28
  | 4 | 6 | 9 | 11 => 30
  | _ => 31

structure Date where
  year : Nat
  month : Nat
  day : Nat
  year_lt : year < 10000
  month_mem : 1 ≤ month ∧ month ≤ 12
  day_mem : 1 ≤ day ∧ day ≤ daysInMonth year month

/-- A time of the day. The second 60 is there for leap seconds. -/
structure Time where
  hour : Nat
  minute : Nat
  second : Nat
  nanosecond : Nat
  hour_lt : hour < 24
  minute_lt : minute < 60
  second_le : second ≤ 60
  nanosecond_lt : nanosecond < 1000000000

inductive Offset where
  /-- No offset, written as a letter. -/
  | universal
  /-- So many minutes ahead of universal time, or behind it. -/
  | shift (minutes : Int) (natAbs_lt : minutes.natAbs < 24 * 60)

inductive Moment where
  | date (d : Date)
  | time (t : Time)
  | both (d : Date) (t : Time) (offset : Option Offset)

/-! ### Normal form -/

/-- The digits of a number, with zeros in front to fill a width. -/
def paddedChars (width n : Nat) : List Char :=
  (Nat.toDigits 10 n).leftpad width '0'

def dropLastZeros (digits : List Char) : List Char :=
  (digits.reverse.dropWhile (· == '0')).reverse

def Date.chars (d : Date) : List Char :=
  paddedChars 4 d.year ++ '-' :: (paddedChars 2 d.month ++ '-' :: paddedChars 2 d.day)

/-- The decimals of a second behind a point, and nothing for a whole second. -/
def decimalChars (nanosecond : Nat) : List Char :=
  if nanosecond = 0 then [] else '.' :: dropLastZeros (paddedChars 9 nanosecond)

def Time.chars (t : Time) : List Char :=
  paddedChars 2 t.hour ++ ':' :: (paddedChars 2 t.minute ++
    ':' :: (paddedChars 2 t.second ++ decimalChars t.nanosecond))

def Offset.chars : Offset → List Char
  | universal => ['Z']
  | shift minutes _ => (if minutes < 0 then '-' else '+') ::
      (paddedChars 2 (minutes.natAbs / 60) ++ ':' :: paddedChars 2 (minutes.natAbs % 60))

def Moment.chars : Moment → List Char
  | date d => d.chars
  | time t => t.chars
  | both d t none => d.chars ++ 'T' :: t.chars
  | both d t (some offset) => d.chars ++ 'T' :: (t.chars ++ offset.chars)

/-- The key under which a moment stands in the dictionary that takes its place. -/
def momentKey : String := "$__toml_private_datetime"

def Moment.toValue (m : Moment) : Value :=
  .dict [(momentKey, .text (String.ofList m.chars))]

/-! ### Reading -/

/-- Read a number of exactly `width` digits. -/
def readFixed? (width : Nat) : TextReader Nat := fun cs =>
  let digits := cs.take width
  if digits.length = width ∧ digits.all Char.isDigit then some (decimalValue digits, cs.drop width)
  else none

/-- Pass over one of some characters. -/
def skipOne? (allowed : List Char) : List Char → Option (List Char)
  | [] => none
  | c :: rest => if c ∈ allowed then some rest else none

def readDate? : TextReader Date := fun cs => do
  let (year, rest) ← readFixed? 4 cs
  let (month, rest) ← readFixed? 2 (← skipOne? ['-'] rest)
  let (day, rest) ← readFixed? 2 (← skipOne? ['-'] rest)
  if h : year < 10000 ∧ (1 ≤ month ∧ month ≤ 12) ∧ 1 ≤ day ∧ day ≤ daysInMonth year month then
    return (⟨year, month, day, h.1, h.2.1, h.2.2⟩, rest)
  else none

/-- Read the decimals of a second as nanoseconds. A point without a digit behind it is left. -/
def readDecimals (cs : List Char) : Nat × List Char :=
  match splitPoint cs with
  | ([], _) => (0, cs)
  | (digits, rest) => (decimalValue ((digits.take 9).rightpad 9 '0'), rest)

def readTime? : TextReader Time := fun cs => do
  let (hour, rest) ← readFixed? 2 cs
  let (minute, rest) ← readFixed? 2 (← skipOne? [':'] rest)
  let (second, rest) ← readFixed? 2 (← skipOne? [':'] rest)
  let (nanosecond, rest) := readDecimals rest
  if h : hour < 24 ∧ minute < 60 ∧ second ≤ 60 ∧ nanosecond < 1000000000 then
    return (⟨hour, minute, second, nanosecond, h.1, h.2.1, h.2.2.1, h.2.2.2⟩, rest)
  else none

/-- Read hours and minutes of an offset. -/
def readShift? (isBehind : Bool) : TextReader Offset := fun cs => do
  let (hours, rest) ← readFixed? 2 cs
  let (minutes, rest) ← readFixed? 2 (← skipOne? [':'] rest)
  if h : hours < 24 ∧ minutes < 60 then
    let total := 60 * hours + minutes
    return (.shift (if isBehind then -total else total) (by split <;> omega), rest)
  else none

def readOffset? : TextReader Offset
  | [] => none
  | c :: rest =>
    if c ∈ ['Z', 'z'] then some (.universal, rest)
    else if c = '+' then readShift? false rest
    else if c = '-' then readShift? true rest
    else none

/-- Read a moment. A date ends where no time follows, and a time where no offset does. -/
def readMoment? : TextReader Moment := fun cs =>
  match readDate? cs with
  | none => (readTime? cs).map fun (t, rest) => (.time t, rest)
  | some (d, rest) =>
    match (skipOne? ['T', 't', ' '] rest).bind readTime? with
    | none => some (.date d, rest)
    | some (t, rest) =>
      match readOffset? rest with
      | none => some (.both d t none, rest)
      | some (offset, rest) => some (.both d t (some offset), rest)

end ChatDice.Toml
