/-
Answering chat messages.

* **`commandReply`** — the one answer to the argument of a roll command;
* **`mentionReply?`** — the answer to free text, if it asks for a roll;
* **`Settings.handle`** — the answer to a message: a roll command is answered in
  every conversation, other text only where scanning is switched on.
-/
import ChatDice.Chat.Settings
import ChatDice.Request

namespace ChatDice

variable {G : Type} [WordSource G]

def commandReply (argument : String) : RollM G Reply := do
  match ← rollCommand argument with
  | .ok evaluation => return .message evaluation.text
  | .error e => return .error e.message

def mentionReply? (text : String) (enabled : Bool) : RollM G (Option Reply) := do
  match ← rollMention text enabled with
  | some evaluation => return some (.message evaluation.text)
  | none => return none

def Settings.handle (settings : Settings) (m : Message) : RollM G (Option Reply) :=
  match settings.commandArgument? m.text with
  | some argument => return some (← commandReply argument)
  | none => mentionReply? m.body (settings.scans m)

end ChatDice
