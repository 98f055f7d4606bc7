/-
Reading configuration text from the front.

* **`readBareKey?`** — a key without quotes;
* **`readItems`** — items between brackets with commas between them;
* **`readQuoted`** — the inside of a quoted text, for every style of quotes.

A reader returns what it read and the characters that are left. Wherever one fails,
the whole text is refused, so no reader says why.
-/
namespace ChatDice

/-- Read something from the front of a text; the rest of the text is returned. -/
abbrev TextReader (α : Type) := List Char → Option (α × List Char)

/-! ### Keys -/

/-- Whether a character may stand in a key without quotes. -/
def isKeyChar (c : Char) : Bool :=
  c.isAlphanum || c == '_' || c == '-'

/-- Read a run of characters that need no quotes in a key. -/
def readBareKey? : TextReader String := fun cs =>
  let (key, rest) := cs.span isKeyChar
  if key.isEmpty then none else some (String.ofList key, rest)

/-! ### Items in brackets -/

structure ItemStyle where
  /-- The closing bracket. -/
  close : Char
  /-- Skip what may stand between items; fails if something there is not allowed. -/
  gap : List Char → Option (List Char)
  /-- Whether a comma may precede the closing bracket. -/
  trailingComma : Bool

/-- Read items with commas between them up to the closing bracket. `mayClose` tells
whether the bracket may come before the next item. -/
def readItems {α : Type} (style : ItemStyle) (item : TextReader α) (mayClose : Bool)
    (cs : List Char) : Option (List α × List Char) := do
  let front ← style.gap cs
  if mayClose && front.head? == some style.close then
    return ([], front.tail)
  let (a, rest) ← item front
  match ← style.gap rest with
  | [] => none
  | c :: rest =>
    if c == style.close then some ([a], rest)
    else if c == ',' then
      if rest.length < cs.length then
        let (as, rest) ← readItems style item style.trailingComma rest
        return (a :: as, rest)
      else none
    else none
termination_by cs.length

/-! ### Quoted text -/

structure QuoteStyle where
  /-- The quote character. -/
  quote : Char
  /-- Whether the text runs over several lines and ends with three quotes. -/
  multiline : Bool
  /-- Whether a backslash begins an escape. -/
  escapes : Bool
  /-- The characters that may stand for themselves. -/
  allows : Char → Bool

/-- Where a reader stands inside a quoted text. -/
inductive QuoteState where
  /-- After a character of the text; `quotes` counts the quotes directly before. -/
  | plain (quotes : Nat)
  /-- After a backslash. -/
  | escape
  /-- Inside the hexadecimal code of a character, with `left` digits to come. -/
  | code (left value : Nat)
  /-- After a backslash at the end of a line, before the line ends. -/
  | lineEnd
  /-- After a backslash at the end of a line, before the text goes on. -/
  | folding

/-- The character that a letter behind a backslash stands for. -/
def simpleEscape? : Char → Option Char
  | '\x22' => some '\x22'
  | '\\' => some '\\'
  | 'b' => some '\x08'
  | 'f' => some '\x0c'
  | 'n' => some '\n'
  | 'r' => some '\r'
  | 't' => some '\t'
  | _ => none

/-- The number of digits in the code that a letter behind a backslash announces. -/
def codeLength? : Char → Option Nat
  | 'u' => some 4
  | 'U' => some 8
  | _ => none

def hexDigit? (c : Char) : Option Nat :=
  if c.isDigit then some (c.toNat - 48)
  else if 'a' ≤ c && c ≤ 'f' then some (c.toNat - 87)
  else if 'A' ≤ c && c ≤ 'F' then some (c.toNat - 55)
  else none

/-- The character with a given code, if there is one. -/
def charOfCode? (code : Nat) : Option Char :=
  if h : code.isValidChar then some (Char.ofNatAux code h) else none

/-- Whether a text that is at a quote ends there. A text over several lines ends with
three quotes, and up to two further quotes before them belong to the text. -/
def QuoteStyle.endsAt (style : QuoteStyle) (quotes : Nat) (rest : List Char) : Bool :=
  if style.multiline then
    let two := [style.quote, style.quote]
    two.isPrefixOf rest && (2 ≤ quotes || !(style.quote :: two).isPrefixOf rest)
  else true

/-- What is left behind a text whose last quotes begin in front of `rest`. -/
def QuoteStyle.afterEnd (style : QuoteStyle) (rest : List Char) : List Char :=
  if style.multiline then rest.drop 2 else rest

/-- What one character of a quoted text does. -/
inductive QuoteStep where
  /-- It completes a character of the text. -/
  | emit (c : Char) (next : QuoteState)
  /-- It adds nothing by itself. -/
  | pass (next : QuoteState)
  /-- It begins the quotes that end the text. -/
  | close
  /-- It may not stand there. -/
  | refuse

namespace QuoteStyle

/-- What a character does that stands for itself, opens an escape or ends the text. -/
def plainStep (style : QuoteStyle) (quotes : Nat) (c : Char) (rest : List Char) : QuoteStep :=
  if c == style.quote then
    if style.endsAt quotes rest then .close else .emit c (.plain (quotes + 1))
  else if style.escapes && c == '\\' then .pass .escape
  else if style.allows c then .emit c (.plain 0)
  else .refuse

/-- What a character directly behind a backslash does. -/
def escapeStep (style : QuoteStyle) (c : Char) : QuoteStep :=
  match simpleEscape? c, codeLength? c with
  | some e, _ => .emit e (.plain 0)
  | none, some n => .pass (.code n 0)
  | none, none =>
    if !style.multiline then .refuse
    else if c == '\n' then .pass .folding
    else if c == ' ' || c == '\t' then .pass .lineEnd
    else .refuse

/-- What a digit of a character's code does. -/
def codeStep (left value : Nat) (c : Char) : QuoteStep :=
  match hexDigit? c with
  | none => .refuse
  | some digit =>
    if 1 < left then .pass (.code (left - 1) (16 * value + digit))
    else match charOfCode? (16 * value + digit) with
      | some e => .emit e (.plain 0)
      | none => .refuse

/-- What a character does, given the characters behind it. -/
def step (style : QuoteStyle) (c : Char) (rest : List Char) : QuoteState → QuoteStep
  | .plain quotes => style.plainStep quotes c rest
  | .escape => style.escapeStep c
  | .code left value => codeStep left value c
  | .lineEnd =>
    if c == '\n' then .pass .folding
    else if c == ' ' || c == '\t' then .pass .lineEnd
    else .refuse
  | .folding =>
    if c == '\n' || c == ' ' || c == '\t' then .pass .folding
    else style.plainStep 0 c rest

end QuoteStyle

/-- Read the inside of a quoted text and the quotes that end it. -/
def readQuoted (style : QuoteStyle) (state : QuoteState) : TextReader (List Char)
  | [] => none
  | c :: rest =>
    match style.step c rest state with
    | .emit e next => (readQuoted style next rest).map fun (cs, left) => (e :: cs, left)
    | .pass next => readQuoted style next rest
    | .close => some ([], style.afterEnd rest)
    | .refuse => none

end ChatDice
