/-
A chat as a feed of lines.

Each line of a feed holds a target, a space and a text; the answer to the message is a
line of the same form. Lines come as bytes and are answered one by one, so what comes
later has no influence on an answer.

* **`splitLines`** — the lines of a sequence of bytes;
* **`Settings.answerLine`** — the answer to one line;
* **`Settings.feed`** — the answers to all lines, up to the first that is no text;
* **`Settings.hear`**, **`Settings.hearEnd`** — the same for bytes that come in pieces, which need
  not end where lines end.
-/
import ChatDice.Chat.Bot

namespace ChatDice

/-! ### Lines -/

def lineFeed : UInt8 := 0x0a

/-- The byte that may precede the end of a line. -/
def carriageReturn : UInt8 := 0x0d

/-- A line without one carriage return at its end. -/
def dropReturn (line : List UInt8) : List UInt8 :=
  if line.getLast? = some carriageReturn then line.dropLast else line

/-- Split bytes into lines; `line` holds the bytes of the current line in reverse. The
last line may lack its line feed, and then keeps a carriage return. -/
def splitLinesFrom (line : List UInt8) : List UInt8 → List (List UInt8)
  | [] => if line.isEmpty then [] else [line.reverse]
  | b :: rest =>
    if b = lineFeed then dropReturn line.reverse :: splitLinesFrom [] rest
    else splitLinesFrom (b :: line) rest

def splitLines (bytes : List UInt8) : List (List UInt8) :=
  splitLinesFrom [] bytes

/-- The lines that end within a piece of the bytes, and the bytes of the line behind them. This
line, and `line`, which has come before the piece, are in reverse. -/
def completeLines (line : List UInt8) : (piece : List UInt8) → List (List UInt8) × List UInt8
  | [] => ([], line)
  | b :: rest =>
    if b = lineFeed then
      let (lines, last) := completeLines [] rest
      (dropReturn line.reverse :: lines, last)
    else completeLines (b :: line) rest

def decodeText? (bytes : List UInt8) : Option String :=
  String.fromUTF8? bytes.toByteArray

/-- The message in a line: its target ends at the first space. -/
def Message.ofLine? (line : String) : Option Message :=
  let (target, rest) := line.toList.span (· != ' ')
  match rest with
  | [] => none
  | _ :: text => some ⟨String.ofList target, String.ofList text⟩

/-! ### Answers -/

variable {G : Type} [WordSource G]

/-- A reply as a line of the feed. -/
def Reply.line (target : String) (reply : Reply) : String :=
  target ++ " " ++ reply.display

/-- The answer to a line. A line without a space is no message. -/
def Settings.answerLine (settings : Settings) (line : String) : RollM G (Option String) :=
  match Message.ofLine? line with
  | none => return none
  | some m => return (← settings.handle m).map (Reply.line m.target)

inductive FeedEnd where
  /-- All lines have been answered. -/
  | finished
  /-- A line is no text. -/
  | undecodable
  | fault (f : Fault)
  deriving DecidableEq

/-- Answer one line given as bytes, or stop. -/
def Settings.answerBytes (settings : Settings) (line : List UInt8) (source : G) :
    Except FeedEnd (Option String) × G :=
  match decodeText? line with
  | none => (.error .undecodable, source)
  | some text =>
    match (settings.answerLine text).exec source with
    | (.ok reply, source) => (.ok reply, source)
    | (.error f, source) => (.error (.fault f), source)

structure FeedResult where
  said : List String
  ending : FeedEnd

def Settings.feed (settings : Settings) (source : G) : (lines : List (List UInt8)) → FeedResult
  | [] => ⟨[], .finished⟩
  | line :: rest =>
    match settings.answerBytes line source with
    | (.error ending, _) => ⟨[], ending⟩
    | (.ok reply, source) =>
      let result := settings.feed source rest
      { result with said := reply.toList ++ result.said }

/-! ### Input in pieces -/

/-- How far the input has been answered. -/
structure Listener (G : Type) where
  /-- What has come of the current line, in reverse. -/
  line : List UInt8
  source : G

/-- Answer lines. The result is what they say, and the source they leave, if the feed goes on. -/
def Settings.answerLines (settings : Settings) (source : G) :
    (lines : List (List UInt8)) → List String × Except FeedEnd G
  | [] => ([], .ok source)
  | line :: rest =>
    match settings.answerBytes line source with
    | (.error ending, _) => ([], .error ending)
    | (.ok reply, source) =>
      let (said, left) := settings.answerLines source rest
      (reply.toList ++ said, left)

/-- Answer the lines that a piece of the input completes. -/
def Settings.hear (settings : Settings) (l : Listener G) (piece : List UInt8) :
    List String × Except FeedEnd (Listener G) :=
  let (lines, last) := completeLines l.line piece
  let (said, left) := settings.answerLines l.source lines
  (said, left.map fun source => ⟨last, source⟩)

/-- Answer the last line, at the end of the input. -/
def Settings.hearEnd (settings : Settings) (l : Listener G) : FeedResult :=
  settings.feed l.source (splitLinesFrom l.line [])

/-- Answer an input that comes in pieces. -/
def Settings.hearAll (settings : Settings) (l : Listener G) :
    (pieces : List (List UInt8)) → FeedResult
  | [] => settings.hearEnd l
  | piece :: rest =>
    match settings.hear l piece with
    | (said, .error ending) => ⟨said, ending⟩
    | (said, .ok l) =>
      let result := settings.hearAll l rest
      { result with said := said ++ result.said }

end ChatDice
