/-
TOML documents.

* **`readValue?`** — a value: a string, a moment, a number, a truth value, an array or an
  inline table;
* **`readStatement?`** — a header or an assignment;
* **`ofText?`** — the dictionary that a whole document denotes, or nothing if it breaks
  a rule of the format.
-/
import ChatDice.Config.Toml.Text
import ChatDice.Config.Toml.Number
import ChatDice.Config.Toml.Moment
import ChatDice.Config.Toml.Table

namespace ChatDice.Toml

/-! ### Values -/

/-- Arrays may stretch over several lines and end with a comma. -/
def arrayStyle : ItemStyle := ⟨']', skipGap false, true⟩

/-- Inline tables stay on one line and do not end with a comma. -/
def inlineTableStyle : ItemStyle := ⟨'}', fun cs => some (skipSpace cs), false⟩

/-- Read a key, the sign of equality and a value. -/
def readAssignment? (value : TextReader Value) : TextReader (List String × Value) := fun cs => do
  let (key, rest) ← readKey? cs
  match rest with
  | '=' :: rest =>
    let (v, rest) ← value (skipSpace rest)
    return ((key, v), rest)
  | _ => none

/-- Read a truth value. -/
def readBoolean? (cs : List Char) : Option (Value × List Char) :=
  (("true".toList.isPrefixOf? cs).map fun rest => (.boolean true, rest)).or
    (("false".toList.isPrefixOf? cs).map fun rest => (.boolean false, rest))

/-- Read a moment or a number. A number does not go on with a minus or a colon, so text that
begins like a moment but is none is no value. -/
def readMomentOrNumber? : TextReader Value := fun cs =>
  match readMoment? cs with
  | some (m, rest) => some (m.toValue, rest)
  | none => readNumber? cs

/-- How deep arrays and inline tables may be nested. -/
def maxNesting : Nat := 79

/-- Read a value in which arrays and inline tables are nested at most `nesting` deep. -/
def readValue? : (nesting : Nat) → TextReader Value
  | nesting, cs =>
    match cs.head? with
    | some '\x22' => (readString? cs).map fun (text, rest) => (.text text, rest)
    | some '\x27' => (readString? cs).map fun (text, rest) => (.text text, rest)
    | some 't' => readBoolean? cs
    | some 'f' => readBoolean? cs
    | some '[' =>
      match nesting with
      | 0 => none
      | nesting + 1 => (readItems arrayStyle (readValue? nesting) true cs.tail).map
          fun (items, rest) => (.list items, rest)
    | some '{' =>
      match nesting with
      | 0 => none
      | nesting + 1 => do
        let (assignments, rest) ←
          readItems inlineTableStyle (readAssignment? (readValue? nesting)) true cs.tail
        return (.dict (← ofAssignments? assignments), rest)
    | _ => readMomentOrNumber? cs

/-! ### Statements -/

/-- A statement of a document. -/
inductive Statement where
  /-- What follows belongs to the table of this key. -/
  | table (key : List String)
  /-- What follows belongs to a new element of the array of tables of this key. -/
  | element (key : List String)
  | assignment (key : List String) (v : Value)

/-- Read the key of a header and the bracket behind it. -/
def readHeader? (brackets : List Char) : TextReader (List String) := fun cs => do
  let (key, rest) ← readKey? cs
  let rest ← brackets.isPrefixOf? rest
  return (key, rest)

/-- Read a statement. -/
def readStatement? : TextReader Statement
  | '[' :: '[' :: rest => (readHeader? [']', ']'] rest).map fun (key, rest) => (.element key, rest)
  | '[' :: rest => (readHeader? [']'] rest).map fun (key, rest) => (.table key, rest)
  | cs => (readAssignment? (readValue? maxNesting) cs).map
      fun ((key, v), rest) => (.assignment key v, rest)

/-- Read the statements of a document, one to a line. -/
def readStatements? (cs : List Char) : Option (List Statement) := do
  match ← skipGap false cs with
  | [] => return []
  | front =>
    let (statement, rest) ← readStatement? front
    let rest ← endLine? rest
    if rest.length < cs.length then return statement :: (← readStatements? rest) else none
termination_by cs.length

/-! ### Documents -/

/-- A document that has been read up to some statement. -/
structure Progress where
  root : Dict Node
  /-- The key of the last header. -/
  current : List String

/-- Carry out a statement. -/
def Progress.step? (p : Progress) : Statement → Option Progress
  | .table key => do
    let root ← openTable? key.dropLast (← key.getLast?) p.root
    return ⟨root, key⟩
  | .element key => do
    let root ← openElement? key.dropLast (← key.getLast?) p.root
    return ⟨root, key⟩
  | .assignment key v => do
    let root ← within? p.current (assignKey? key v) p.root
    return { p with root }

/-- The dictionary that the statements of a document denote. -/
def ofStatements? (statements : List Statement) : Option (Dict Value) :=
  (statements.foldlM Progress.step? ⟨[], []⟩).map fun p => closeEntries p.root

/-- The dictionary that a document denotes. -/
def ofText? (text : String) : Option (Dict Value) := do
  let cs ← normalizeLines (dropMark text.toList)
  ofStatements? (← readStatements? cs)

end ChatDice.Toml
