/-
What a text asks to be rolled.

* **`Expression.parse`** — a whole text as an expression, of any size;
* **`Request.ofCommand`** — the argument of a roll command: the whole text has to be
  one expression within the limits, and what is wrong with it is reported;
* **`Request.ofMention?`** — free text: the first roll set counts if it is within the
  limits, else the first expression if that is, and otherwise the text asks nothing;
* **`Request.roll`** — carries a request out.

Design notes: what is asked depends on the text alone, never on the dice. Only
`Request.roll` takes words from a source.
-/
import ChatDice.Notation.Search
import ChatDice.Bounds
import ChatDice.Evaluation
import ChatDice.Roll
import ChatDice.Text.Blank

namespace ChatDice

/-! ### Requests -/

inductive Request where
  | single (expression : Expression)
  | repeated (set : RollSet)
  deriving DecidableEq

/-- The first limit that a value of a form breaks, if any. -/
def Form.violation? : (form : Form) → form.Value → Option Violation
  | single => Expression.violation?
  | repeated => RollSet.violation?

/-- The request to roll a value of a form. -/
def Form.request : (form : Form) → form.Value → Request
  | single => Request.single
  | repeated => Request.repeated

inductive RequestError where
  /-- The argument is not an expression. -/
  | usage
  /-- The expression breaks a limit. -/
  | outOfBounds (violation : Violation)
  deriving DecidableEq

/-- The text that tells a user why a command is refused. -/
def RequestError.message : RequestError → String
  | usage => "Dice must be of the form <dice>d<sides><modifier>"
  | outOfBounds violation => violation.message

/-- The expression that a whole text spells, or the reason why there is none. -/
def Expression.parse (text : String) : Except RequestError Expression :=
  match Expression.ofText? text with
  | some e => .ok e
  | none => .error .usage

namespace Request

/-- The request that the argument of a roll command makes. White space around the
expression does not count. -/
def ofCommand (argument : String) : Except RequestError Request :=
  match Expression.ofText? (trim argument) with
  | none => .error .usage
  | some e =>
    match e.violation? with
    | some v => .error (.outOfBounds v)
    | none => .ok (.single e)

/-- The request for the first occurrence of a form in a text, unless it breaks a limit. -/
def ofFirst? (form : Form) (text : String) : Option Request :=
  (find? form text).bind fun value =>
    if (form.violation? value).isNone then some (form.request value) else none

/-- The request that free text makes: a roll set comes before an expression, wherever
the two stand. -/
def ofMention? (text : String) : Option Request :=
  (ofFirst? .repeated text).or (ofFirst? .single text)

end Request

/-! ### Carrying out -/

variable {G : Type} [WordSource G]

def Request.roll : Request → RollM G Evaluation
  | single e => return .single e (← e.roll)
  | repeated s => return .repeated s (← s.roll)

def rollCommand (argument : String) : RollM G (Except RequestError Evaluation) :=
  match Request.ofCommand argument with
  | .ok request => return .ok (← request.roll)
  | .error e => return .error e

/-- Carry out what free text asks for, unless scanning is switched off. -/
def rollMention (text : String) (enabled : Bool) : RollM G (Option Evaluation) :=
  match if enabled then Request.ofMention? text else none with
  | some request => return some (← request.roll)
  | none => return none

end ChatDice
