/-
What a chat bot can say.

* **`Reply.Sound`** — a message reports rolls that are possible, under a header that spells the
  expression they are rolls of; an error is one of the refusals of a command;
* **`Settings.yields_answer`** — whatever the source of words, a call is answered without a fault
  and soundly;
* **`Settings.converse_replies_sound`** — so is every call of a conversation.
-/
import ChatDice.Chat.Conversation
import ChatDice.Proofs.Notation.RoundTrip
import ChatDice.Proofs.Roll.Request

namespace ChatDice

/-! ### Sound replies -/

/-- A text reports totals of an expression: a header that spells the expression stands in
brackets, and the totals follow. The expression is within the limits and the totals lie in its
range. -/
structure Reports (text header : String) (e : Expression) (totals : List Int64) : Prop where
  text_eq : text = "[" ++ header ++ "] " ++ ", ".intercalate (totals.map (·.toInt.repr))
  header_spells : Expression.ofText? header = some e
  withinLimits : e.violation? = none
  inRange : ∀ total ∈ totals, e.InRange total

/-- The reasons for which the argument of a command can be refused. -/
def refusals : List RequestError :=
  [.usage, .outOfBounds .tooManyDice, .outOfBounds .tooManySides, .outOfBounds .tooFewSides]

/-- A reply that a bot may give: to a command, it reports a single total. -/
def Reply.Sound (toCommand : Prop) : Reply → Prop
  | .message text => ∃ header e totals, Reports text header e totals ∧
      1 ≤ totals.length ∧ totals.length ≤ maxRepeats ∧ (toCommand → totals.length = 1)
  | .error text => (∃ error ∈ refusals, text = error.message) ∧
      text ≠ Violation.tooManyRepeats.message

/-- The roll command is given, with its prefix or directly. -/
def Call.IsCommand (settings : Settings) : Call → Prop
  | .message m => (settings.commandArgument? m.text).isSome
  | .roll _ => True

/-- A command gets a reply, and every reply is sound. -/
structure Call.AnsweredBy (settings : Settings) (call : Call) (reply? : Option Reply) : Prop where
  isSome : call.IsCommand settings → reply?.isSome
  sound : ∀ reply ∈ reply?, reply.Sound (call.IsCommand settings)

theorem mem_refusals {argument : String} {error : RequestError}
    (h : Request.ofCommand argument = .error error) : error ∈ refusals := by
  rcases Request.ofCommand_eq_error_iff.mp h with ⟨-, rfl⟩ | ⟨e, v, -, hv, rfl⟩
  · decide
  · -- an expression has no repeats, so it cannot break their limit
    have hne : v ≠ .tooManyRepeats := fun heq => e.violation?_ne_tooManyRepeats (heq ▸ hv)
    cases v with
    | tooManyRepeats => exact absurd rfl hne
    | _ => decide

theorem message_ne_of_mem_refusals {error : RequestError} (h : error ∈ refusals) :
    error.message ≠ Violation.tooManyRepeats.message := by
  revert error
  decide

theorem sound_error {argument : String} {error : RequestError}
    (h : Request.ofCommand argument = .error error) (toCommand : Prop) :
    (Reply.error error.message).Sound toCommand :=
  ⟨⟨error, mem_refusals h, rfl⟩, message_ne_of_mem_refusals (mem_refusals h)⟩

/-- The report of an evaluation that answers a request is a sound reply. -/
theorem sound_message {request : Request} (hlimits : request.WithinLimits) {v : Evaluation}
    (h : request.Answered v) {toCommand : Prop} (hcommand : toCommand → request.rolls = 1) :
    (Reply.message v.text).Sound toCommand := by
  have hreports : Reports v.text v.expression.text v.expression v.totals :=
    { text_eq := rfl
      header_spells := v.expression.ofText?_text
      withinLimits := h.expression_eq ▸ hlimits.expression
      inRange := fun total ht => h.expression_eq ▸ h.inRange total ht }
  refine ⟨_, _, _, hreports, ?_, ?_, ?_⟩
  all_goals rw [h.length_totals]
  · exact hlimits.rolls_pos
  · exact hlimits.rolls_le
  · exact hcommand

/-! ### One call -/

variable {G : Type} [WordSource G]

open RollM

theorem yields_commandReply (argument : String) (toCommand : Prop) :
    Yields (commandReply argument : RollM G Reply) (Reply.Sound toCommand) := by
  rw [commandReply]
  refine Yields.bind (yields_rollCommand argument) fun result h => ?_
  cases h with
  | rolled hlimits hanswered =>
    exact yields_pure (sound_message (Request.withinLimits_single hlimits) hanswered fun _ => rfl)
  | refused hreason => exact yields_pure (sound_error hreason toCommand)

theorem yields_mentionReply? (text : String) (enabled : Bool) :
    Yields (mentionReply? text enabled : RollM G _) fun reply? =>
      ∀ reply ∈ reply?, reply.Sound False := by
  rw [mentionReply?]
  refine Yields.bind (yields_rollMention text enabled) fun result h => ?_
  cases h with
  | rolled hlimits hanswered =>
    refine yields_pure fun reply hreply => ?_
    cases hreply
    exact sound_message hlimits hanswered False.elim
  | silent => exact yields_pure nofun

/-- Whatever the source of words, a call is answered without a fault and soundly. -/
theorem Settings.yields_answer (settings : Settings) (call : Call) :
    Yields (settings.answer call : RollM G _) (call.AnsweredBy settings) := by
  have hcommand (argument : String) :
      Yields (do return some (← commandReply argument) : RollM G (Option Reply))
        (call.AnsweredBy settings) := by
    refine Yields.bind (yields_commandReply argument (call.IsCommand settings))
      fun reply hreply => yields_pure ⟨fun _ => rfl, ?_⟩
    rintro _ ⟨⟩
    exact hreply
  cases call with
  | roll argument => exact hcommand argument
  | message m =>
    rw [answer, handle]
    cases h : settings.commandArgument? m.text with
    | some argument => exact hcommand argument
    | none =>
      -- the message is no command, so the number of totals is not restricted to one
      have hno : ¬ (Call.message m).IsCommand settings := by
        rw [Call.IsCommand, h]
        exact Bool.false_ne_true
      refine (yields_mentionReply? m.body (settings.scans m)).mono fun reply? hsound => ?_
      refine ⟨fun hcall => absurd hcall hno, ?_⟩
      rw [eq_false hno]
      exact hsound

/-! ### Conversations -/

/-- In every conversation, from every source of words, each call is answered without a fault, and
what is said is sound. -/
theorem Settings.converse_replies_sound (settings : Settings) (calls : List Call) (source : G) :
    List.Forall₂ (fun call answer => ∃ reply?, answer = .ok reply? ∧ call.AnsweredBy settings reply?)
      calls (settings.converse calls source).1 := by
  -- every call starts from the source that the calls before it leave behind
  induction calls generalizing source with
  | nil => exact .nil
  | cons call calls ih =>
    obtain ⟨reply?, hanswer, hanswered⟩ := settings.yields_answer call source
    exact .cons ⟨reply?, hanswer, hanswered⟩ (ih _)

end ChatDice
