/-
Loading the settings.

Settings come in three layers: the defaults, a configuration file, and the variables of
the environment. The layers are merged, later over earlier, and checked afterwards.

* **`ConfigFile.ofEntries`** — what a search for the configuration file finds;
* **`Settings.ofLayers`** — the settings that a document and an environment give;
* **`Settings.load`** — the same, with the ways in which a file can fail.
-/
import ChatDice.Config.Check
import ChatDice.Config.Environment
import ChatDice.Config.Toml.Document

namespace ChatDice

/-- What a search for the configuration file has found. -/
inductive ConfigFile where
  /-- No file was asked for, or what was asked for is no file. -/
  | absent
  /-- A file was asked for that does not exist. -/
  | missing (path : String)
  /-- The content of the file; none if it cannot be read, or is no text. -/
  | found (content : Option String)

/-! ### The search for the file -/

/-- What stands at a path. -/
inductive PathEntry where
  | nothing
  /-- A folder, or anything else that is no file. -/
  | folder
  /-- A file and what is in it; none if it cannot be read. -/
  | file (bytes : Option ByteArray)

def PathEntry.isFile : PathEntry → Bool
  | file _ => true
  | _ => false

def PathEntry.content? : PathEntry → Option (Option String)
  | file bytes => some (bytes.bind String.fromUTF8?)
  | _ => none

/-- The paths at which a file is looked for. The working directory is `depth` folders below the
root; a path that begins in it is looked for in the folders above it, too. -/
def searchPaths (path : String) (depth : Nat) : List String :=
  if path.startsWith "/" then [path]
  else (List.range (depth + 1)).map fun n => String.join (List.replicate n "../") ++ path

/-- What a search finds if these entries stand at its paths. Something has to stand at the first one,
and the first file counts. -/
def ConfigFile.ofEntries (path : String) (entries : List PathEntry) : ConfigFile :=
  match entries.head? with
  | some .nothing => .missing path
  | _ =>
    match entries.findSome? PathEntry.content? with
    | some content => .found content
    | none => .absent

/-! ### Layers -/

inductive LoadError where
  | notFound (path : String)
  /-- The file cannot be read, or breaks a rule of its format. -/
  | malformed
  | mismatch (m : Mismatch)

/-- What the text of a load error begins with, unless a file is missing. -/
def invalidConfiguration : String := "invalid configuration"

/-- The first layer. Every setting that has a default stands in it. -/
def defaultLayer : Dict Value :=
  [("auto_roll", .dict [("channels", .dict []), ("default", .boolean false),
      ("private", .boolean false)]),
    ("command_prefix", .text Settings.default.commandPrefix)]

/-- The three layers, merged. -/
def mergedLayers (document environment : Dict Value) : Dict Value :=
  Value.mergeEntries (Value.mergeEntries defaultLayer document) environment

/-- The settings that a document and an environment give. -/
def Settings.ofLayers (document : Dict Value) (environment : Environment) : Checked Settings :=
  Settings.ofDict (mergedLayers document environment.layer)

def ConfigFile.document : ConfigFile → Except LoadError (Dict Value)
  | absent => .ok []
  | missing path => .error (.notFound path)
  | found none => .error .malformed
  | found (some content) =>
    match Toml.ofText? content with
    | some document => .ok document
    | none => .error .malformed

def Settings.load (file : ConfigFile) (environment : Environment) :
    Except LoadError Settings := do
  let document ← file.document
  (Settings.ofLayers document environment).mapError LoadError.mismatch

end ChatDice
