/-
Lines, blanks and comments of a TOML document.

* **`normalizeLines`** — ends every line with a line feed;
* **`skipGap`** — passes over blanks, line ends and comments;
* **`endLine?`** — passes over what may stand behind a statement on its line.
-/
namespace ChatDice.Toml

/-- The mark that some editors put in front of a document. -/
def byteOrderMark : Char := Char.ofNat 0xfeff

/-- A document without the byte-order mark in front of it. -/
def dropMark : List Char → List Char
  | [] => []
  | c :: rest => if c == byteOrderMark then rest else c :: rest

/-- End every line with a line feed alone. A carriage return may only stand in front of
a line feed. -/
def normalizeLines : List Char → Option (List Char)
  | [] => some []
  | '\r' :: '\n' :: rest => (normalizeLines rest).map ('\n' :: ·)
  | c :: rest => if c == '\r' then none else (normalizeLines rest).map (c :: ·)

/-- Whether a character is a blank inside a line. -/
def isSpace (c : Char) : Bool :=
  c == ' ' || c == '\t'

/-- Pass over blanks inside a line. -/
def skipSpace (cs : List Char) : List Char :=
  cs.dropWhile isSpace

/-- Whether a character may stand in a comment or, for itself, in quoted text: a tab or
anything that is no ASCII control. -/
def isPlain (c : Char) : Bool :=
  c == '\t' || (' ' ≤ c && c != '\x7f')

/-- Pass over blanks, line ends and comments. Fails at a character that may not stand in
a comment. -/
def skipGap (inComment : Bool) : List Char → Option (List Char)
  | [] => some []
  | c :: rest =>
    if c == '\n' then skipGap false rest
    else if inComment then if isPlain c then skipGap true rest else none
    else if isSpace c then skipGap false rest
    else if c == '#' then skipGap true rest
    else some (c :: rest)

/-- Pass over the rest of a line that may hold blanks and a comment only. -/
def endLine? (cs : List Char) : Option (List Char) :=
  match skipSpace cs with
  | [] => some []
  | c :: rest =>
    if c == '\n' then some rest
    else if c == '#' then
      match rest.dropWhile isPlain with
      | [] => some []
      | '\n' :: rest => some rest
      | _ => none
    else none

end ChatDice.Toml
