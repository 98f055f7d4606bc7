/-
The command line.

Collects what a run finds around it, has the library carry the run out, and writes the
outcome. Input is answered piece by piece as it arrives.
-/
import ChatDice.Program

namespace ChatDice

/-- What stands at a path. With a slash behind it, a path leads to a folder or nowhere. -/
def readEntry (path : String) : IO PathEntry := do
  match ← (IO.FS.realPath path).toBaseIO with
  | .error _ =>
    -- a pipe can be opened, but has no place among the folders
    match ← (IO.FS.Handle.mk path .read).toBaseIO with
    | .error _ => return .nothing
    | .ok _ => return .folder
  | .ok _ =>
    match ← (IO.FS.Handle.mk (path ++ "/") .read).toBaseIO with
    | .error (.inappropriateType ..) =>
      let bytes ← (IO.FS.readBinFile path).toBaseIO
      return .file bytes.toOption
    | _ => return .folder

/-- What stands at paths, up to the first file. -/
def readEntries : List String → IO (List PathEntry)
  | [] => return []
  | path :: rest => do
    let entry ← readEntry path
    if entry.isFile then return [entry] else return entry :: (← readEntries rest)

/-- How many folders the working directory is below the root. -/
def readDepth : IO Nat := do
  let parts := (toString (← IO.FS.realPath ".")).splitOn "/"
  return (parts.filter (· ≠ "")).length

/-- The configuration file at a path. -/
def readConfigFile (path : Option String) : IO ConfigFile := do
  match path with
  | none => return .absent
  | some path => return .ofEntries path (← readEntries (searchPaths path (← readDepth)))

/-- Split bytes at the zeros behind each entry. -/
def splitEntries (bytes : List UInt8) : List (List UInt8) :=
  bytes.splitOn 0

/-- The variable that an entry of the environment sets. -/
def Variable.ofEntry? (entry : List UInt8) : Option Variable := do
  let text ← decodeText? entry
  let (name, rest) := text.toList.span (· != '=')
  match rest with
  | [] => none
  | _ :: value => some ⟨String.ofList name, String.ofList value⟩

/-- The variables of the environment. -/
def readEnvironment : IO Environment := do
  let bytes ← IO.FS.readBinFile "/proc/self/environ"
  return (splitEntries bytes.data.toList).filterMap Variable.ofEntry?

/-- A number that nobody can foresee. -/
def readEntropy : IO UInt64 := do
  let bytes ← IO.getRandomBytes 8
  return bytes.data.foldl (fun n b => n * 256 + b.toUInt64) 0

/-- What a run of an invocation finds around it, apart from its input. -/
def readSurroundings (i : Invocation) : IO Surroundings := do
  return ⟨← readConfigFile i.options.configPath, ← readEnvironment, [], ← readEntropy⟩

/-- Write an outcome. -/
def Outcome.write (o : Outcome) : IO UInt32 := do
  let output ← IO.getStdout
  output.putStr o.output
  output.flush
  if !o.complaint.isEmpty then IO.eprintln o.complaint
  return UInt32.ofNat o.code

def printLines (texts : List String) : IO Unit := do
  let output ← IO.getStdout
  for text in texts do
    output.putStr (printedLine text)
  output.flush

/-- Answer the input as it arrives. -/
partial def answerInput (settings : Settings) (l : Listener Stream) : IO FeedEnd := do
  let bytes ← (← IO.getStdin).read 4096
  if bytes.isEmpty then
    let result := settings.hearEnd l
    printLines result.said
    return result.ending
  else
    let (said, heard) := settings.hear l bytes.data.toList
    printLines said
    match heard with
    | .ok l => answerInput settings l
    | .error ending => return ending

/-- Carry out an invocation. -/
def Invocation.execute (i : Invocation) : IO UInt32 := do
  let around ← readSurroundings i
  match i.settings around with
  | .error _ => (i.run around).write
  | .ok settings =>
    match i.task with
    | .listen =>
      let stream := Stream.ofSeed (settings.seed.getD around.entropy)
      let ending ← answerInput settings ⟨[], stream⟩
      (ending.outcome "").write
    | task => (Invocation.perform task settings around).write

end ChatDice

/-- Carry out what the arguments ask for. -/
def main (arguments : List String) : IO UInt32 :=
  match ChatDice.Invocation.ofArguments arguments with
  | .ok i => i.execute
  | .error refusal => refusal.outcome.write
