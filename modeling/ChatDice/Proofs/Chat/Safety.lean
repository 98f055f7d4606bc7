/-
No text leads to a fault.

Rolling checks no limits: a die without sides is a fault, and so is a sum of dice beyond 64 bits.
The limits keep clear of both, but a text may take one of several ways to a roll, and on each of
them something else has to check it. So this is about all ways together, in any order:

* **`Prompt`** — a call to the bot, or a text that is scanned without one;
* **`Prompt.decision_withinLimits`** — every request that a prompt leads to is within the limits;
* **`Prompt.handled`** — one prompt, from any source of words;
* **`Settings.session_never_faults`** — any prompts one after another, and the scanners that read their
  texts.
-/
import ChatDice.Proofs.Chat.Decision
import ChatDice.Proofs.Notation.Cursor

namespace ChatDice

open RollM

/-! ### Prompts -/

/-- Anything that may make dice roll. -/
inductive Prompt where
  | call (c : Call)
  /-- Free text that is scanned as it is, if scanning is switched on. -/
  | scan (text : String) (enabled : Bool)

/-- The decision on a prompt. -/
def Prompt.decision (settings : Settings) : Prompt → Decision
  | call c => settings.decision c
  | scan text enabled => .ofMention text enabled

variable {G : Type} [WordSource G]

def Settings.respond (settings : Settings) : Prompt → RollM G (Option Reply)
  | .call c => settings.answer c
  | .scan text enabled => mentionReply? text enabled

/-- Respond to prompts one after another; all rolls take their words from one source. -/
def Settings.session (settings : Settings) : List Prompt → G → List Answer × G
  | [], source => ([], source)
  | prompt :: prompts, source =>
    let (answer, source) := (settings.respond prompt).exec source
    let (answers, source) := settings.session prompts source
    (answer :: answers, source)

/-- A conversation is a session in which nothing is scanned without the bot. -/
theorem Settings.session_map_call (settings : Settings) (calls : List Call) (source : G) :
    settings.session (calls.map .call) source = settings.converse calls source := by
  induction calls generalizing source with
  | nil => rfl
  | cons call calls ih =>
    rw [List.map_cons, session, converse, respond]
    simp only [ih]

theorem Settings.exec_respond (settings : Settings) (prompt : Prompt) (source : G) :
    exec (settings.respond prompt) source = (prompt.decision settings).outcome source := by
  cases prompt with
  | call c => exact settings.exec_answer c source
  | scan text enabled => exact exec_mentionReply? text enabled source

/-! ### Requests within the limits -/

theorem Decision.ofCommand_withinLimits {argument : String} {request : Request}
    (h : ofCommand argument = .reported request) : request.WithinLimits := by
  rw [ofCommand] at h
  cases hrequest : Request.ofCommand argument with
  | error e =>
    rw [hrequest] at h
    cases h
  | ok accepted =>
    rw [hrequest] at h
    obtain rfl := Decision.reported.inj h
    exact Request.ofCommand_withinLimits hrequest

theorem Decision.ofMention_withinLimits {text : String} {enabled : Bool} {request : Request}
    (h : ofMention text enabled = .reported request) : request.WithinLimits := by
  cases enabled with
  | false => cases h
  | true =>
    rw [ofMention, if_pos rfl] at h
    cases hrequest : Request.ofMention? text with
    | none =>
      rw [hrequest] at h
      cases h
    | some accepted =>
      rw [hrequest] at h
      obtain rfl := Decision.reported.inj h
      exact Request.ofMention?_withinLimits hrequest

/-- Every request that a prompt leads to is within the limits. -/
theorem Prompt.decision_withinLimits {settings : Settings} {prompt : Prompt} {request : Request}
    (h : prompt.decision settings = .reported request) : request.WithinLimits := by
  cases prompt with
  | scan text enabled =>
    rw [decision] at h
    exact Decision.ofMention_withinLimits h
  | call c =>
    rw [decision] at h
    cases c with
    | roll argument =>
      rw [Settings.decision] at h
      exact Decision.ofCommand_withinLimits h
    | message m =>
      rw [Settings.decision] at h
      cases hcommand : settings.commandArgument? m.text with
      | some argument =>
        rw [hcommand] at h
        exact Decision.ofCommand_withinLimits h
      | none =>
        rw [hcommand] at h
        exact Decision.ofMention_withinLimits h

/-! ### One prompt -/

/-- How a prompt is handled: without a roll, or by rolling one request, with numbers that no limit
forbids. A roll ends without a fault, so its dice have sides and their sum fits in 64 bits. -/
inductive Prompt.Handled (settings : Settings) (prompt : Prompt) (source : G) : Answer → G → Prop
  | settled {reply? : Option Reply} (decided : prompt.decision settings = .settled reply?) :
      Handled settings prompt source (.ok reply?) source
  | rolled {request : Request} {v : Evaluation} {left : G}
      (decided : prompt.decision settings = .reported request)
      (count_le : request.expression.count.toNat ≤ maxDice)
      (le_sides : minSides ≤ request.expression.sides.toNat)
      (sides_le : request.expression.sides.toNat ≤ maxSides)
      (rolls_pos : 1 ≤ request.rolls)
      (rolls_le : request.rolls ≤ maxRepeats)
      (rolls : exec request.roll source = (.ok v, left)) :
      Handled settings prompt source (.ok (some (.message v.text))) left

theorem Prompt.handled (settings : Settings) (prompt : Prompt) (source : G) :
    prompt.Handled settings source (exec (settings.respond prompt) source).1
      (exec (settings.respond prompt) source).2 := by
  rw [settings.exec_respond]
  cases hdecision : prompt.decision settings with
  | settled reply? => exact .settled hdecision
  | reported request =>
    have hlimits := prompt.decision_withinLimits hdecision
    obtain ⟨hcount, hmin, hmax⟩ := request.expression.violation?_eq_none_iff.mp hlimits.expression
    obtain ⟨v, hroll, -⟩ := Request.yields_roll hlimits source
    rw [Decision.outcome, hroll]
    exact .rolled hdecision hcount hmin hmax hlimits.rolls_pos hlimits.rolls_le
      (Prod.ext hroll rfl)

/-! ### Sessions -/

/-- Prompts are handled one after another, each from the source that the one before leaves. -/
inductive AllHandled (settings : Settings) : List Prompt → G → List Answer → G → Prop
  | nil (source : G) : AllHandled settings [] source [] source
  | cons {prompt : Prompt} {prompts : List Prompt} {source next left : G} {answer : Answer}
      {answers : List Answer} (first : prompt.Handled settings source answer next)
      (others : AllHandled settings prompts next answers left) :
      AllHandled settings (prompt :: prompts) source (answer :: answers) left

theorem Settings.session_handled (settings : Settings) (prompts : List Prompt) (source : G) :
    AllHandled settings prompts source (settings.session prompts source).1
      (settings.session prompts source).2 := by
  -- a prompt is handled from any source, so also from the one that the prompts before it leave
  induction prompts generalizing source with
  | nil => exact .nil source
  | cons prompt prompts ih => exact .cons (prompt.handled settings source) (ih _)

/-- Whatever texts the bot is given, in whatever order and from whatever source of words, every
prompt is handled without a fault, and what is rolled is within the limits. The scanners behind it,
of any text, never are out of range, and come to what the decisions are made on. -/
theorem Settings.session_never_faults (settings : Settings) (prompts : List Prompt) (source : G) :
    AllHandled settings prompts source (settings.session prompts source).1
        (settings.session prompts source).2 ∧
      (∀ form text, Cursor.find form text = .ok (find? form text)) ∧
      ∀ text, Cursor.wholeText text = .ok (Expression.ofText? text) :=
  ⟨settings.session_handled prompts source, Cursor.find_eq, Cursor.wholeText_eq⟩

end ChatDice
