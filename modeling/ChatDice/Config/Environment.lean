/-
Settings in variables of the environment.

* **`settingPath?`** — the path of keys that the name of a variable stands for, if the
  variable is a setting at all;
* **`readVariableValue`** — what the text of a variable says: a truth value, a
  dictionary, a list, a quoted text, a number or, failing all these, the text itself;
* **`Environment.layer`** — all settings of an environment, later variables over earlier.
-/
import ChatDice.Config.Value
import ChatDice.Config.Reader
import ChatDice.Decimal.Read
import ChatDice.Text.Blank

namespace ChatDice

/-! ### Variables -/

structure Variable where
  name : String
  text : String
  deriving DecidableEq

/-- The variables of an environment, in the order in which they are looked at. -/
abbrev Environment := List Variable

namespace Environment

/-- Set a variable: one of the same name keeps its place. -/
def set (v : Variable) : Environment → Environment
  | [] => [v]
  | w :: rest => if w.name = v.name then v :: rest else w :: set v rest

/-- The environment that holds after setting variables one after another. -/
def ofAssignments (assignments : List Variable) : Environment :=
  assignments.foldl (fun environment v => environment.set v) []

end Environment

/-! ### Names -/

/-- What the names of settings start with, in letters of either case. -/
def variableStart : String := "DICEBOT_"

/-- What follows `start` in a name that begins with it up to the case of ASCII letters. -/
def stripStartIgnoringCase? (start name : List Char) : Option (List Char) :=
  let front := name.take start.length
  if front.map Char.toLower = start.map Char.toLower then some (name.drop start.length) else none

/-- Turn each pair of underscores into a point, from the left. -/
def pointPairs : List Char → List Char
  | '_' :: '_' :: rest => '.' :: pointPairs rest
  | c :: rest => c :: pointPairs rest
  | [] => []

def splitPoints (name : List Char) : List (List Char) :=
  name.splitOn '.'

/-- The path of keys that a name stands for. Names with another start, or with an empty
part, are no settings. -/
def settingPath? (name : String) : Option (List String) := do
  let rest ← stripStartIgnoringCase? variableStart.toList (trimChars name.toList)
  let parts := splitPoints (trimChars (pointPairs rest))
  if parts.any List.isEmpty then none
  else some (parts.map fun part => String.ofList (part.map Char.toLower))

/-! ### Values -/

def isAsciiBlank (c : Char) : Bool :=
  c == ' ' || c == '\t' || c == '\n' || c == '\x0c' || c == '\r'

def skipAsciiBlank (cs : List Char) : List Char :=
  cs.dropWhile isAsciiBlank

def isDelimiter (c : Char) : Bool :=
  [',', '\x7b', '\x7d', '[', ']'].contains c

/-- A whole number behind a minus that fits in 64 signed bits. -/
def readNegative64? : List Char → Option Int
  | '-' :: rest => ((readDigitsOnly? false rest).filter (· ≤ leastInt64.natAbs)).map fun n => -(n : Int)
  | _ => none

/-- What a word says that is no other kind of value. -/
def wordValue (word : List Char) : Value :=
  match if word.contains '.' then readFraction? word else none with
  | some x => .float x
  | none =>
    match readUnsigned64? word with
    | some n => .unsigned n
    | none =>
      match readNegative64? word with
      | some n => .signed n
      | none => .text (String.ofList word)

/-- Read a word, which may be empty. -/
def readWord? : TextReader Value := fun cs =>
  let (word, rest) := cs.span fun c => !isDelimiter c
  some (wordValue (trimChars word), rest)

/-- Text in quotes, in which any character may stand. -/
def variableQuoteStyle : QuoteStyle := ⟨'\x22', false, true, fun _ => true⟩

/-- Read a text in double quotes, from behind the first of them. -/
def readQuotedText? : TextReader String := fun cs =>
  (readQuoted variableQuoteStyle (.plain 0) cs).map fun (text, rest) => (String.ofList text, rest)

def readEntryKey? : TextReader String
  | '\x22' :: rest => readQuotedText? rest
  | cs => readBareKey? cs

def readPair? (value : TextReader Value) : TextReader (String × Value) := fun cs => do
  let (key, rest) ← readEntryKey? (skipAsciiBlank cs)
  match skipAsciiBlank rest with
  | '=' :: rest =>
    let (v, rest) ← value rest
    return ((key, v), rest)
  | _ => none

/-- Lists end with a bracket, before which a comma may stand. Blanks belong to the items. -/
def listStyle : ItemStyle := ⟨']', some, true⟩

/-- Dictionaries end with a brace, before which a comma may stand. -/
def dictStyle : ItemStyle := ⟨'\x7d', some, true⟩

/-- The dictionary with the given entries, later ones over earlier ones. -/
def dictOf (entries : List (String × Value)) : Value :=
  .dict (entries.foldl (fun d (key, v) => Dict.insert key v d) [])

/-- Read a value without the blanks around it. -/
def readBareValue? (nested : TextReader Value) : TextReader Value := fun cs =>
  match "true".toList.isPrefixOf? cs, "false".toList.isPrefixOf? cs with
  | some rest, _ => some (.boolean true, rest)
  | none, some rest => some (.boolean false, rest)
  | none, none =>
    match cs with
    | '\x7b' :: rest => (readItems dictStyle (readPair? nested) true rest).map
        fun (entries, rest) => (dictOf entries, rest)
    | '[' :: rest => (readItems listStyle nested true rest).map
        fun (items, rest) => (.list items, rest)
    | '\x22' :: rest => (readQuotedText? rest).map fun (text, rest) => (.text text, rest)
    | '\x27' :: c :: '\x27' :: rest => some (.text c.toString, rest)
    | '\x27' :: _ => none
    | cs => readWord? cs

/-- Read a value in which brackets are nested less than `fuel` deep, and the blanks
around it. -/
def readNestedValue? : (fuel : Nat) → TextReader Value
  | 0, _ => none
  | fuel + 1, cs => do
    let (v, rest) ← readBareValue? (readNestedValue? fuel) (skipAsciiBlank cs)
    return (v, skipAsciiBlank rest)

/-- What the text of a variable says. If not all of it is a value, it is taken as it
stands. -/
def readVariableValue (text : String) : Value :=
  match readNestedValue? (text.length + 1) text.toList with
  | some (v, []) => v
  | _ => .text text

/-! ### The layer -/

/-- The setting that a variable makes, as a dictionary with one value. -/
def Variable.setting? (v : Variable) : Option (Dict Value) := do
  match ← settingPath? v.name with
  | [] => none
  | key :: path => some [(key, .nest path (readVariableValue v.text))]

/-- The settings that an environment makes, later variables over earlier ones. -/
def Environment.layer (environment : Environment) : Dict Value :=
  (environment.filterMap Variable.setting?).foldl Value.mergeEntries []

end ChatDice
