/-
The settings of a chat bot.

`Settings` say how a roll command is marked, where free text is scanned for dice,
and whether rolls start from a fixed seed. Scanning is switched per origin: one
switch for conversations with a person, and for channels an entry per channel with
a default for those without one. Channel names are compared without regard to the
case of ASCII letters; the first entry that matches counts.
-/
import ChatDice.Chat.Message
import ChatDice.Text.Blank

namespace ChatDice

/-- Where free text is scanned. -/
structure AutoRoll where
  /-- For channels without an entry of their own. -/
  byDefault : Bool
  /-- For conversations with one person. -/
  direct : Bool
  /-- For single channels. -/
  channels : List (String × Bool)
  deriving DecidableEq

structure Settings where
  /-- What stands in front of a command. -/
  commandPrefix : String
  autoRoll : AutoRoll
  /-- The seed of the rolls, if they are to be the same every time. -/
  seed : Option UInt64
  deriving DecidableEq

/-- Whether two names are equal up to the case of ASCII letters. -/
def sameName (a b : String) : Bool :=
  a.toList.map Char.toLower == b.toList.map Char.toLower

def AutoRoll.channelEnabled (switches : AutoRoll) (channel : String) : Bool :=
  match switches.channels.find? fun entry => sameName entry.1 channel with
  | some (_, enabled) => enabled
  | none => switches.byDefault

/-- The switches that matter for one conversation. -/
structure ScanContext where
  channel : Bool
  direct : Bool
  deriving DecidableEq

def ScanContext.enabled (context : ScanContext) : Origin → Bool
  | .channel => context.channel
  | .direct => context.direct

namespace Settings

def default : Settings where
  commandPrefix := "!"
  autoRoll := ⟨false, false, []⟩
  seed := none

def scanContext (settings : Settings) (target : String) : ScanContext where
  channel := settings.autoRoll.channelEnabled target
  direct := settings.autoRoll.direct

def scans (settings : Settings) (m : Message) : Bool :=
  (settings.scanContext m.target).enabled m.origin

/-- The argument of a roll command, if a text is one: the prefix and the word `roll`,
with the end of the text or white space behind it. -/
def commandArgument? (settings : Settings) (text : String) : Option String := do
  let command ← stripStart? settings.commandPrefix text
  let argument ← stripStart? "roll" command
  match argument.toList with
  | [] => some argument
  | c :: _ => if isBlank c then some argument else none

end Settings

end ChatDice
