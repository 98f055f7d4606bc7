/-
What a call comes down to before any word is taken.

The text of a call decides everything but the faces: the answer is either settled by the text alone
or reports a request, and only carrying out the request takes words.

* **`Settings.decision`** — the decision on a call, which no source of words has a part in;
* **`Settings.exec_answer`** — a call is answered as it is decided.
-/
import ChatDice.Chat.Conversation
import ChatDice.Proofs.Roll.Request

namespace ChatDice

open RollM

/-- The decision on a call. -/
inductive Decision where
  /-- The answer is known without a roll. -/
  | settled (reply? : Option Reply)
  /-- The answer reports what comes of a request. -/
  | reported (request : Request)

namespace Decision

/-- The decision on the argument of a roll command. -/
def ofCommand (argument : String) : Decision :=
  match Request.ofCommand argument with
  | .ok request => reported request
  | .error e => settled (some (.error e.message))

/-- The decision on free text. -/
def ofMention (text : String) (enabled : Bool) : Decision :=
  match if enabled then Request.ofMention? text else none with
  | some request => reported request
  | none => settled none

/-- The answer that follows from a decision, and the source behind it. -/
def outcome {G : Type} [WordSource G] (decision : Decision) (source : G) : Answer × G :=
  match decision with
  | settled reply? => (.ok reply?, source)
  | reported request =>
    ((exec request.roll source).1.map fun v => some (.message v.text), (exec request.roll source).2)

end Decision

def Settings.decision (settings : Settings) : Call → Decision
  | .roll argument => .ofCommand argument
  | .message m =>
    match settings.commandArgument? m.text with
    | some argument => .ofCommand argument
    | none => .ofMention m.body (settings.scans m)

variable {G : Type} [WordSource G]

theorem exec_commandReply (argument : String) (source : G) :
    exec (do return some (← commandReply argument)) source =
      (Decision.ofCommand argument).outcome source := by
  rw [exec_bind_pure, commandReply, exec_bind, exec_rollCommand, Decision.ofCommand]
  cases Request.ofCommand argument with
  | error e => rfl
  | ok request =>
    dsimp only [Decision.outcome]
    cases exec request.roll source with
    | mk result left => cases result <;> rfl

theorem exec_mentionReply? (text : String) (enabled : Bool) (source : G) :
    exec (mentionReply? text enabled) source =
      (Decision.ofMention text enabled).outcome source := by
  rw [mentionReply?, exec_bind, exec_rollMention, Decision.ofMention]
  cases if enabled then Request.ofMention? text else none with
  | none => rfl
  | some request =>
    dsimp only [Decision.outcome]
    cases exec request.roll source with
    | mk result left => cases result <;> rfl

/-- A call is answered as it is decided. -/
theorem Settings.exec_answer (settings : Settings) (call : Call) (source : G) :
    exec (settings.answer call) source = (settings.decision call).outcome source := by
  cases call with
  | roll argument => exact exec_commandReply argument source
  | message m =>
    rw [answer, handle, decision]
    cases settings.commandArgument? m.text with
    | some argument => exact exec_commandReply argument source
    | none => exact exec_mentionReply? m.body (settings.scans m) source

end ChatDice
