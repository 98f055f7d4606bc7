/-
Conversations with a chat bot.

A `Call` is anything that makes the bot speak: a message that comes in, or the roll
command given directly. `Settings.converse` answers calls one after another. All rolls
take their words from one source; a call that ends in a fault leaves the source where
it was stopped, and the conversation goes on.
-/
import ChatDice.Chat.Bot

namespace ChatDice

inductive Call where
  | message (m : Message)
  /-- The roll command without its prefix. -/
  | roll (argument : String)
  deriving DecidableEq

/-- The answer to a call; a fault takes its place. -/
abbrev Answer := Except Fault (Option Reply)

variable {G : Type} [WordSource G]

def Settings.answer (settings : Settings) : Call → RollM G (Option Reply)
  | .message m => settings.handle m
  | .roll argument => return some (← commandReply argument)

def Settings.converse (settings : Settings) : List Call → G → List Answer × G
  | [], source => ([], source)
  | call :: calls, source =>
    let (answer, source) := (settings.answer call).exec source
    let (answers, source) := settings.converse calls source
    (answer :: answers, source)

end ChatDice
