/-
Strings and keys of a TOML document.

* **`readString?`** — the four kinds of strings: with escapes or literal, on one line
  or over several;
* **`readKey?`** — a key of one or more parts with dots between them.
-/
import ChatDice.Config.Reader
import ChatDice.Config.Toml.Layout

namespace ChatDice.Toml

/-! ### Strings -/

/-- A string on one line in which a backslash begins an escape. -/
def basicStyle : QuoteStyle := ⟨'\x22', false, true, isPlain⟩

/-- A string on one line in which every character stands for itself. -/
def literalStyle : QuoteStyle := ⟨'\x27', false, false, isPlain⟩

/-- The same style for a string over several lines. -/
def multilineStyle (style : QuoteStyle) : QuoteStyle :=
  { style with multiline := true, allows := fun c => c == '\n' || style.allows c }

/-- Drop the line end directly behind the opening quotes. -/
def dropFirstLineEnd : List Char → List Char
  | '\n' :: rest => rest
  | rest => rest

/-- Read a string on one line. -/
def readLine? (style : QuoteStyle) : TextReader String
  | [] => none
  | c :: rest =>
    if c == style.quote then
      (readQuoted style (.plain 0) rest).map fun (cs, left) => (String.ofList cs, left)
    else none

/-- Read a string over several lines. -/
def readLines? (style : QuoteStyle) : TextReader String := fun cs => do
  let rest ← [style.quote, style.quote, style.quote].isPrefixOf? cs
  let (text, left) ← readQuoted (multilineStyle style) (.plain 0) (dropFirstLineEnd rest)
  return (String.ofList text, left)

/-- Read a string in a style, over several lines if it opens with three quotes. -/
def readStyled? (style : QuoteStyle) (cs : List Char) : Option (String × List Char) :=
  if [style.quote, style.quote, style.quote].isPrefixOf cs then readLines? style cs
  else readLine? style cs

/-- Read a string of any kind. -/
def readString? : TextReader String := fun cs =>
  if cs.head? == some '\x22' then readStyled? basicStyle cs else readStyled? literalStyle cs

/-! ### Keys -/

/-- Read one part of a key. -/
def readPart? : TextReader String := fun cs =>
  match cs.head? with
  | some '\x22' => readLine? basicStyle cs
  | some '\x27' => readLine? literalStyle cs
  | _ => readBareKey? cs

/-- The most parts of a key. -/
def maxParts : Nat := 79

/-- Read a key of at most `limit` parts, and the blanks behind it. -/
def readParts? : (limit : Nat) → TextReader (List String)
  | 0, _ => none
  | limit + 1, cs => do
    let (part, rest) ← readPart? (skipSpace cs)
    match skipSpace rest with
    | '.' :: rest =>
      let (parts, rest) ← readParts? limit rest
      return (part :: parts, rest)
    | rest => return ([part], rest)

/-- Read a key, and the blanks around it. -/
def readKey? : TextReader (List String) :=
  readParts? maxParts

end ChatDice.Toml
