/-
Calls that roll nothing leave no trace in a conversation.

A call rolls nothing if its answer is silence, a refusal or the report of a roll without dice. All
calls of a conversation share one source of words, so this is about the source: such a call leaves
it as it was, whatever it was, and always has the same answer.

* **`RollsNothing`** — the answers of such calls;
* **`Request.exists_exec_roll_of_count_eq_zero`** — without dice, a request takes no words, and
  what comes of it does not depend on the source;
* **`Settings.exec_answer_of_rollsNothing`** — one call;
* **`Settings.converse_of_thinned`** — a conversation, with or without any such calls.
-/
import ChatDice.Proofs.Chat.Decision
import ChatDice.Proofs.Notation.Report
import ChatDice.Random.Script

namespace ChatDice

open RollM

/-- The answers for which no die is rolled. -/
inductive RollsNothing : Option Reply → Prop
  | silent : RollsNothing none
  | refused (text : String) : RollsNothing (some (.error text))
  | noDice {v : Evaluation} (count_eq : v.expression.count = 0) :
      RollsNothing (some (.message v.text))

variable {G : Type} [WordSource G]

/-! ### Requests without dice -/

theorem Expression.exists_exec_roll_of_count_eq_zero {e : Expression} (h : e.count = 0) :
    ∃ outcome, ∀ source : G, exec e.roll source = (outcome, source) := by
  by_cases hsides : e.sides.toNat = 0
  · refine ⟨.error .noSides, fun source => ?_⟩
    rw [roll, if_pos hsides, exec_throw]
  · refine ⟨.ok (addModifier 0 e.modifier), fun source => ?_⟩
    rw [roll, if_neg hsides, h]
    rfl

theorem Expression.exists_exec_rollRepeatedly_of_count_eq_zero {e : Expression} (h : e.count = 0)
    (count : Nat) :
    ∃ outcome, ∀ source : G, exec (e.rollRepeatedly count) source = (outcome, source) := by
  induction count with
  | zero => exact ⟨.ok [], fun source => rfl⟩
  | succ count ih =>
    obtain ⟨first, hfirst⟩ := e.exists_exec_roll_of_count_eq_zero (G := G) h
    obtain ⟨others, hothers⟩ := ih
    cases first with
    | error fault =>
      refine ⟨.error fault, fun source => ?_⟩
      rw [rollRepeatedly, exec_bind, hfirst]
    | ok total =>
      refine ⟨others.map (total :: ·), fun source => ?_⟩
      rw [rollRepeatedly, exec_bind, hfirst]
      dsimp only
      rw [exec_bind_pure, hothers]

/-- Without dice, a request takes no words, and what comes of it does not depend on the source. -/
theorem Request.exists_exec_roll_of_count_eq_zero {request : Request}
    (h : request.expression.count = 0) :
    ∃ outcome, ∀ source : G, exec request.roll source = (outcome, source) := by
  cases request with
  | single e =>
    obtain ⟨outcome, hroll⟩ := e.exists_exec_roll_of_count_eq_zero (G := G) h
    refine ⟨outcome.map (.single e), fun source => ?_⟩
    rw [roll, exec_bind_pure, hroll]
  | repeated s =>
    obtain ⟨outcome, hroll⟩ :=
      s.expression.exists_exec_rollRepeatedly_of_count_eq_zero (G := G) h s.repeats.toNat
    refine ⟨outcome.map (.repeated s), fun source => ?_⟩
    rw [roll, exec_bind_pure, RollSet.roll, hroll]

theorem Request.expression_of_exec_roll {request : Request} {source : G} {v : Evaluation}
    (h : (exec request.roll source).1 = .ok v) : v.expression = request.expression := by
  cases request with
  | single e =>
    rw [roll, exec_bind_pure, map_eq_ok_iff] at h
    obtain ⟨total, _, rfl⟩ := h
    rfl
  | repeated s =>
    rw [roll, exec_bind_pure, map_eq_ok_iff] at h
    obtain ⟨totals, _, rfl⟩ := h
    rfl

/-! ### One call -/

/-- If the answer to a call shows that it rolls nothing, the call has this answer from every source
and leaves the source as it was. -/
theorem Settings.exec_answer_of_rollsNothing {settings : Settings} {call : Call} {source : G}
    {reply? : Option Reply} (hanswer : (exec (settings.answer call) source).1 = .ok reply?)
    (h : RollsNothing reply?) (source' : G) :
    exec (settings.answer call) source' = (.ok reply?, source') := by
  rw [exec_answer] at hanswer ⊢
  cases hdecision : settings.decision call with
  | settled settled? =>
    rw [hdecision] at hanswer
    obtain rfl : settled? = reply? := Except.ok.inj hanswer
    rfl
  | reported request =>
    rw [hdecision] at hanswer
    obtain ⟨v, hroll, rfl⟩ := map_eq_ok_iff.mp hanswer
    -- of the answers that roll nothing, only a report without dice comes of a request
    generalize htext : v.text = text at h
    cases h with
    | @noDice w hcount =>
      have hzero : request.expression.count = 0 := by
        rw [← Request.expression_of_exec_roll hroll, Evaluation.expression_eq_of_text_eq htext]
        exact hcount
      obtain ⟨outcome, houtcome⟩ := request.exists_exec_roll_of_count_eq_zero (G := G) hzero
      rw [houtcome] at hroll
      rw [Decision.outcome, houtcome, show outcome = .ok v from hroll, ← htext]
      rfl

/-! ### Conversations -/

/-- The calls of a conversation with their answers. -/
def Settings.transcript (settings : Settings) (calls : List Call) (source : G) :
    List (Call × Answer) :=
  calls.zip (settings.converse calls source).1

/-- A transcript without some of the calls that roll nothing, which may stand anywhere. -/
inductive Thinned : List (Call × Answer) → List (Call × Answer) → Prop
  | nil : Thinned [] []
  | keep (entry : Call × Answer) {whole rest : List (Call × Answer)} (h : Thinned whole rest) :
      Thinned (entry :: whole) (entry :: rest)
  | drop (call : Call) {reply? : Option Reply} (rolls_nothing : RollsNothing reply?)
      {whole rest : List (Call × Answer)} (h : Thinned whole rest) :
      Thinned ((call, .ok reply?) :: whole) rest

theorem Settings.converse_cons (settings : Settings) (call : Call) (calls : List Call)
    (source : G) :
    settings.converse (call :: calls) source =
      ((exec (settings.answer call) source).1 ::
          (settings.converse calls (exec (settings.answer call) source).2).1,
        (settings.converse calls (exec (settings.answer call) source).2).2) := rfl

theorem Settings.transcript_cons (settings : Settings) (call : Call) (calls : List Call)
    (source : G) :
    settings.transcript (call :: calls) source =
      (call, (exec (settings.answer call) source).1) ::
        settings.transcript calls (exec (settings.answer call) source).2 := rfl

theorem Settings.exists_answer_of_mem_transcript {settings : Settings} {calls : List Call}
    {source : G} {entry : Call × Answer} (h : entry ∈ settings.transcript calls source) :
    ∃ source' : G, (exec (settings.answer entry.1) source').1 = entry.2 := by
  induction calls generalizing source with
  | nil => simp [transcript] at h
  | cons call calls ih =>
    rw [transcript_cons, List.mem_cons] at h
    rcases h with rfl | hlater
    · exact ⟨source, rfl⟩
    · exact ih hlater

theorem Settings.converse_map_of_thinned {settings : Settings} {calls : List Call} {source : G}
    {rest : List (Call × Answer)} (h : Thinned (settings.transcript calls source) rest) :
    settings.converse (rest.map Prod.fst) source =
      (rest.map Prod.snd, (settings.converse calls source).2) := by
  -- a call that is left out passes its own source on to the calls behind it
  induction calls generalizing source rest with
  | nil =>
    cases h
    rfl
  | cons call calls ih =>
    rw [transcript_cons] at h
    rw [converse_cons]
    generalize hentry : (call, (exec (settings.answer call) source).1) = entry at h
    cases h with
    | keep _ h =>
      subst hentry
      rw [List.map_cons, converse_cons, ih h]
      rfl
    | @drop _ reply? hnothing _ _ h =>
      obtain ⟨rfl, hanswer⟩ := Prod.mk.inj hentry
      have hstays := exec_answer_of_rollsNothing hanswer hnothing source
      rw [hstays] at h ⊢
      exact ih h

/-- Leave any calls that roll nothing out of a conversation, or put them back in: all other calls
get the same answers, and in the end the source is the same. A call that rolls nothing does so from
every source, with the same answer, and leaves the source as it was. -/
theorem Settings.converse_of_thinned {settings : Settings} {calls : List Call} {source : G}
    {rest : List (Call × Answer)} (h : Thinned (settings.transcript calls source) rest) :
    settings.converse (rest.map Prod.fst) source =
      (rest.map Prod.snd, (settings.converse calls source).2) ∧
    ∀ call reply?, (call, .ok reply?) ∈ settings.transcript calls source → RollsNothing reply? →
      ∀ source' : G, exec (settings.answer call) source' = (.ok reply?, source') := by
  refine ⟨converse_map_of_thinned h, fun call reply? hmem hnothing => ?_⟩
  obtain ⟨_, hanswer⟩ := exists_answer_of_mem_transcript hmem
  exact exec_answer_of_rollsNothing hanswer hnothing

/-- Two rolls in a channel, with idle talk, a roll without dice and a refusal between them. -/
theorem Settings.converse_of_thinned_between_rolls :
    let source : Script := ⟨#[0xffffffff, 0, 0x80000000], by decide, 0⟩
    let calls : List Call :=
      [.message ⟨"#den", "!roll 2d6"⟩, .message ⟨"#den", "1d20 for luck"⟩, .roll "0d6+4",
        .message ⟨"bob", "!roll 2d1"⟩, .message ⟨"#den", "!roll 1d20"⟩]
    let rest : List (Call × Answer) :=
      [(.message ⟨"#den", "!roll 2d6"⟩, .ok (some (.message "[2d6] 7"))),
        (.message ⟨"#den", "!roll 1d20"⟩, .ok (some (.message "[1d20] 11")))]
    Thinned (Settings.default.transcript calls source) rest ∧
      Settings.default.converse (rest.map Prod.fst) source =
        (rest.map Prod.snd, (Settings.default.converse calls source).2) := by
  intro source calls rest
  have htranscript : Settings.default.transcript calls source =
      [(.message ⟨"#den", "!roll 2d6"⟩, .ok (some (.message "[2d6] 7"))),
        (.message ⟨"#den", "1d20 for luck"⟩, .ok none),
        (.roll "0d6+4", .ok (some (.message (Evaluation.single ⟨0, 6, 4⟩ 4).text))),
        (.message ⟨"bob", "!roll 2d1"⟩, .ok (some (.error Violation.tooFewSides.message))),
        (.message ⟨"#den", "!roll 1d20"⟩, .ok (some (.message "[1d20] 11")))] := by
    decide +kernel
  have hthinned : Thinned (Settings.default.transcript calls source) rest := by
    rw [htranscript]
    exact .keep _ (.drop _ .silent (.drop _ (.noDice rfl) (.drop _ (.refused _) (.keep _ .nil))))
  exact ⟨hthinned, (converse_of_thinned hthinned).1⟩

end ChatDice
