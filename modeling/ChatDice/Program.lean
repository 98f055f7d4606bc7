/-
The program behind the command line.

* **`Invocation.run`** — carries an invocation out, given what it finds around it;
* **`run`** — the same for the bare arguments.

Design notes: an `Outcome` is all that can be seen of a run. Reading files, the
environment and the input, and writing the outcome, is left to the outer layer.
-/
import ChatDice.Chat.Feed
import ChatDice.Config.Load
import ChatDice.Invocation
import ChatDice.Random.Stream

namespace ChatDice

/-! ### Outcomes -/

structure Outcome where
  /-- The exit code. -/
  code : Nat
  /-- What is printed. -/
  output : String
  /-- The message about a failure. -/
  complaint : String
  deriving DecidableEq

def printedLine (text : String) : String :=
  text ++ "\n"

def usageCode : Nat := 2

def failureCode : Nat := 1

def faultCode : Nat := 101

namespace Outcome

/-- A run that does what was asked for. -/
def success (output : String) : Outcome := ⟨0, output, ""⟩

/-- A run that fails for a reason the user can mend. -/
def failure (output reason : String) : Outcome := ⟨failureCode, output, "Error: " ++ reason⟩

/-- A run that ends in a fault. -/
def fault (output : String) (f : Fault) : Outcome := ⟨faultCode, output, f.message⟩

end Outcome

def versionText : String := "dicebot 0.1.0"

/-- How the program is used. -/
def helpText : String :=
  "Usage: dicebot [-c PATH] [--seed N] roll EXPRESSION... | scan TEXT... | listen"

/-- The outcome of arguments that spell no invocation. -/
def Refusal.outcome : Refusal → Outcome
  | usage => ⟨usageCode, "", helpText⟩
  | help => .success (printedLine helpText)
  | version => .success (printedLine versionText)

/-! ### Tasks -/

/-- What is said about input that is no text. -/
def undecodableMessage : String := "stream did not contain valid UTF-8"

/-- Roll the expression that words spell. -/
def rollWords (words : List String) (stream : Stream) : Outcome :=
  match ((rollCommand (" ".intercalate words)).exec stream).1 with
  | .ok (.ok evaluation) => .success (printedLine evaluation.text)
  | .ok (.error e) => .failure "" e.message
  | .error f => .fault "" f

/-- Roll what words mention. -/
def scanWords (words : List String) (stream : Stream) : Outcome :=
  match ((rollMention (" ".intercalate words) true).exec stream).1 with
  | .ok (some evaluation) => .success (printedLine evaluation.text)
  | .ok none => .success ""
  | .error f => .fault "" f

/-- The outcome of a feed that has said `output`. -/
def FeedEnd.outcome (output : String) : FeedEnd → Outcome
  | finished => .success output
  | undecodable => .failure output undecodableMessage
  | fault f => .fault output f

/-- Answer the messages in the lines of the input. -/
def listen (settings : Settings) (input : List UInt8) (stream : Stream) : Outcome :=
  let result := settings.feed stream (splitLines input)
  result.ending.outcome (String.join (result.said.map printedLine))

/-! ### Runs -/

/-- What a run finds around it. -/
structure Surroundings where
  /-- What the named configuration file is. -/
  file : ConfigFile
  environment : Environment
  input : List UInt8
  /-- A number that nobody can foresee. -/
  entropy : UInt64

namespace LoadError

def message : LoadError → String
  | notFound path => "config file not found: " ++ path
  | malformed => invalidConfiguration ++ ": the file cannot be read"
  | mismatch m => invalidConfiguration ++ ": " ++ m.message ++ " for key " ++
      quoted (".".intercalate m.path)

end LoadError

namespace Invocation

/-- The settings that hold for an invocation: a seed that it names comes first. -/
def settings (i : Invocation) (around : Surroundings) : Except LoadError Settings := do
  let loaded ← Settings.load around.file around.environment
  return { loaded with seed := i.options.seed.or loaded.seed }

def perform (task : Task) (settings : Settings) (around : Surroundings) : Outcome :=
  let stream := Stream.ofSeed (settings.seed.getD around.entropy)
  match task with
  | .roll words => rollWords words stream
  | .scan words => scanWords words stream
  | .listen => listen settings around.input stream

/-- Carry out an invocation. -/
def run (i : Invocation) (around : Surroundings) : Outcome :=
  match i.settings around with
  | .ok settings => perform i.task settings around
  | .error e => .failure "" e.message

end Invocation

/-- Carry out what arguments ask for. -/
def run (arguments : List String) (around : Surroundings) : Outcome :=
  match Invocation.ofArguments arguments with
  | .ok i => i.run around
  | .error refusal => refusal.outcome

end ChatDice
