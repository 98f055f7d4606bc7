/-
Chat messages and the answers to them.

A `Message` goes to a target, which is a channel or a person. Its body is the text
people see: an action, which travels inside a wrapper of control characters, is
unwrapped.
-/
import ChatDice.Text.Affix

namespace ChatDice

inductive Origin where
  | channel
  /-- A conversation with one person. -/
  | direct
  deriving DecidableEq

structure Message where
  target : String
  text : String
  deriving DecidableEq

/-- The characters that the names of channels start with. -/
def channelMarks : List Char := ['#', '&', '+', '!']

def isChannel (target : String) : Bool :=
  match target.toList with
  | [] => false
  | c :: _ => channelMarks.contains c

def actionStart : String := "\x01ACTION "

/-- What an action usually ends with. -/
def actionEnd : String := "\x01"

namespace Message

def origin (m : Message) : Origin :=
  if isChannel m.target then .channel else .direct

def body (m : Message) : String :=
  match stripStart? actionStart m.text with
  | some action => (stripEnding? actionEnd action).getD action
  | none => m.text

end Message

inductive Reply where
  /-- The report of a roll. -/
  | message (text : String)
  /-- The reason why a command is refused. -/
  | error (text : String)
  deriving DecidableEq

namespace Reply

/-- The words of a reply without the mark of an error. -/
def text : Reply → String
  | message text => text
  | error text => text

/-- A reply as it is sent. -/
def display : Reply → String
  | message text => text
  | error text => "Error: " ++ text

end Reply

end ChatDice
