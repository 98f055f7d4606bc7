/-
What a command line asks for.

* **`Invocation`** — a task, with a configuration file and a seed if they are named;
* **`Invocation.ofArguments`** — the invocation that a list of arguments spells.

Options may stand before and behind the name of the task, each at most once on either
side; of two values the one behind the name counts. Two hyphens end the options. A
word that begins with a hyphen is an option wherever options are read, except for the
hyphen alone.
-/
import ChatDice.Decimal.Read

namespace ChatDice

/-! ### Invocations -/

/-- What is to be done. -/
inductive Task where
  /-- Roll the expression that the words spell. -/
  | roll (words : List String)
  /-- Roll what the words mention. -/
  | scan (words : List String)
  /-- Answer the messages that come in. -/
  | listen
  deriving DecidableEq

/-- The options that every task knows. -/
structure Options where
  configPath : Option String
  seed : Option UInt64
  deriving DecidableEq

/-- A task and its options. -/
structure Invocation where
  options : Options
  task : Task
  deriving DecidableEq

/-- Why arguments spell no invocation. -/
inductive Refusal where
  /-- They break a rule of the command line. -/
  | usage
  /-- They ask how the program is used. -/
  | help
  /-- They ask for the version of the program. -/
  | version
  deriving DecidableEq

/-! ### Options -/

/-- The names of the options that have a value. -/
inductive OptionName where
  | config
  | seed
  deriving DecidableEq

namespace Options

/-- No option at all. -/
def empty : Options := ⟨none, none⟩

/-- Give an option its value, unless it has one or the value is of no use. -/
def set? (o : Options) (name : OptionName) (text : String) : Option Options :=
  match name with
  | .config =>
    if o.configPath.isSome || text.isEmpty then none else some { o with configPath := some text }
  | .seed =>
    match readUnsigned64? text.toList with
    | some n => if o.seed.isSome then none else some { o with seed := some (UInt64.ofNat n) }
    | none => none

/-- The options of two places; those of the second count more. -/
def merge (first second : Options) : Options where
  configPath := second.configPath.or first.configPath
  seed := second.seed.or first.seed

end Options

/-! ### Single arguments -/

/-- The two places where options are read. -/
inductive Place where
  | beforeTask
  | behindTask
  deriving DecidableEq

/-- What a single argument is. -/
inductive Argument where
  | word
  /-- Two hyphens alone. -/
  | escape
  /-- An option with its value. -/
  | valued (name : OptionName) (text : String)
  /-- An option whose value is the next argument. -/
  | awaiting (name : OptionName)
  | refused (why : Refusal)
  deriving DecidableEq

namespace Argument

/-- An option given by its long name, with what follows a sign of equality. -/
def ofLong (place : Place) (name : List Char) (value : Option (List Char)) : Argument :=
  let option? : Option OptionName :=
    if name = "config".toList then some .config
    else if name = "seed".toList then some .seed
    else none
  match option?, value with
  | some option, some text => valued option (String.ofList text)
  | some option, none => awaiting option
  | none, some _ => refused .usage
  | none, none =>
    if name = "help".toList then refused .help
    else if name = "version".toList ∧ place = .beforeTask then refused .version
    else refused .usage

/-- Options given by their letters. A value may follow its letter directly or behind a
sign of equality. -/
def ofLetters (place : Place) : List Char → Argument
  | 'c' :: [] => awaiting .config
  | 'c' :: '=' :: text => valued .config (String.ofList text)
  | 'c' :: text => valued .config (String.ofList text)
  | 'h' :: _ => refused .help
  | 'V' :: _ => refused (if place = .beforeTask then .version else .usage)
  | _ => refused .usage

/-- Sort an argument. -/
def ofChars (place : Place) : List Char → Argument
  | ['-', '-'] => escape
  | '-' :: '-' :: long =>
    let (name, rest) := long.span (· != '=')
    ofLong place name (match rest with
      | [] => none
      | _ :: value => some value)
  | ['-'] => word
  | '-' :: letters => ofLetters place letters
  | _ => word

/-- Whether an argument can be the value of an option in front of it. -/
def isValue (text : String) : Bool :=
  match text.toList with
  | ['-'] => true
  | '-' :: _ => false
  | _ => true

end Argument

/-! ### Lists of arguments -/

/-- The arguments read in one place. -/
structure Scanned where
  options : Options
  words : List String
  /-- What is left behind the first word, where reading stops at it. -/
  rest : List String

/-- Read arguments. In front of the task's name, reading stops at the first word. -/
def scanArguments (place : Place) (o : Options) (words : List String) :
    List String → Except Refusal Scanned
  | [] => .ok ⟨o, words, []⟩
  | argument :: rest =>
    match Argument.ofChars place argument.toList with
    | .word =>
      match place with
      | .beforeTask => .ok ⟨o, [argument], rest⟩
      | .behindTask => scanArguments place o (words ++ [argument]) rest
    | .escape =>
      match place with
      | .beforeTask => .error .usage
      | .behindTask => .ok ⟨o, words ++ rest, []⟩
    | .valued name text =>
      match o.set? name text with
      | some o => scanArguments place o words rest
      | none => .error .usage
    | .awaiting name =>
      match rest with
      | [] => .error .usage
      | text :: rest =>
        if Argument.isValue text then
          match o.set? name text with
          | some o => scanArguments place o words rest
          | none => .error .usage
        else .error .usage
    | .refused why => .error why

/-- The task of a name and the words behind it. -/
def Task.ofWords? (name : String) (words : List String) : Option Task :=
  match name, words with
  | "roll", _ :: _ => some (roll words)
  | "scan", _ :: _ => some (scan words)
  | "listen", [] => some listen
  | _, _ => none

/-- The names of the tasks. -/
def taskNames : List String := ["roll", "scan", "listen"]

/-- The invocation that a list of arguments spells. -/
def Invocation.ofArguments (arguments : List String) : Except Refusal Invocation := do
  let front ← scanArguments .beforeTask .empty [] arguments
  match front.words with
  | [] => .error .usage
  | name :: _ =>
    if name = "help" then
      if front.rest.all taskNames.contains then .error .help else .error .usage
    else if taskNames.contains name then
      let back ← scanArguments .behindTask .empty [] front.rest
      match Task.ofWords? name back.words with
      | some task => return ⟨front.options.merge back.options, task⟩
      | none => .error .usage
    else .error .usage

end ChatDice
