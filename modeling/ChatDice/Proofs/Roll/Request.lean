/-
What texts ask for, and what comes of it.

* **`Request.ofCommand_eq_ok_iff`**, **`Request.ofCommand_eq_error_iff`** — the argument of a
  command asks for one roll of the expression it spells, or is refused for the reason that
  comes first;
* **`Request.ofCommand_withinLimits`**, **`Request.ofMention?_withinLimits`** — neither a command nor
  free text ever asks for more than the limits allow;
* **`Request.yields_roll`** — a request within the limits is carried out without a fault, and
  its totals are as many as it asks for and lie in the range of its expression;
* **`exec_rollCommand`**, **`exec_rollMention`** — a text is decided on its own, and only a request
  that is accepted takes words;
* **`yields_rollCommand`**, **`yields_rollMention`** — what commands and free text lead to.
-/
import ChatDice.Proofs.Roll.Range
import ChatDice.Request

namespace ChatDice

open RollM

variable {G : Type} [WordSource G]

theorem Expression.violation?_ne_tooManyRepeats (e : Expression) :
    e.violation? ≠ some .tooManyRepeats := by
  rw [violation?]
  -- each of the limits looked at has a violation of its own
  split
  · decide
  · split
    · decide
    · split <;> decide

namespace Request

def expression : Request → Expression
  | single e => e
  | repeated s => s.expression

/-- How many totals a request asks for. -/
def rolls : Request → Nat
  | single _ => 1
  | repeated s => s.repeats.toNat

/-- Both the expression and the number of rolls are within the limits. -/
structure WithinLimits (request : Request) : Prop where
  expression : request.expression.violation? = none
  rolls_pos : 1 ≤ request.rolls
  rolls_le : request.rolls ≤ maxRepeats

theorem withinLimits_single {e : Expression} (h : e.violation? = none) :
    (single e).WithinLimits :=
  ⟨h, Nat.le_refl 1, show 1 ≤ maxRepeats by decide⟩

theorem withinLimits_repeated {s : RollSet} (h : s.violation? = none) :
    (repeated s).WithinLimits := by
  obtain ⟨he, hpos, hle⟩ := s.violation?_eq_none_iff.mp h
  exact ⟨he, hpos, hle⟩

/-! ### Commands -/

theorem ofCommand_eq_ok_iff {argument : String} {request : Request} :
    ofCommand argument = .ok request ↔
      ∃ e, Expression.ofText? (trim argument) = some e ∧ e.violation? = none ∧
        .single e = request := by
  rw [ofCommand]
  constructor
  · intro h
    split at h
    · cases h
    · next e he =>
      split at h
      · cases h
      · next hv =>
        cases h
        exact ⟨e, he, hv, rfl⟩
  · rintro ⟨e, he, hv, rfl⟩
    rw [he]
    dsimp only
    rw [hv]

theorem ofCommand_eq_error_iff {argument : String} {error : RequestError} :
    ofCommand argument = .error error ↔
      (Expression.ofText? (trim argument) = none ∧ .usage = error) ∨
        ∃ e v, Expression.ofText? (trim argument) = some e ∧ e.violation? = some v ∧
          .outOfBounds v = error := by
  rw [ofCommand]
  constructor
  · intro h
    split at h
    · next he =>
      cases h
      exact .inl ⟨he, rfl⟩
    · next e he =>
      split at h
      · next v hv =>
        cases h
        exact .inr ⟨e, v, he, hv, rfl⟩
      · cases h
  · rintro (⟨he, rfl⟩ | ⟨e, v, he, hv, rfl⟩)
    · rw [he]
    · rw [he]
      dsimp only
      rw [hv]

theorem ofCommand_withinLimits {argument : String} {request : Request}
    (h : ofCommand argument = .ok request) : request.WithinLimits := by
  obtain ⟨e, -, hlimits, rfl⟩ := ofCommand_eq_ok_iff.mp h
  exact withinLimits_single hlimits

/-! ### Free text -/

theorem ofFirst?_eq_some_iff {form : Form} {text : String} {request : Request} :
    ofFirst? form text = some request ↔
      ∃ value, find? form text = some value ∧ form.violation? value = none ∧
        form.request value = request := by
  simp only [ofFirst?, Option.bind_eq_some_iff, Option.isNone_iff_eq_none,
    Option.ite_none_right_eq_some, Option.some.injEq]

theorem ofMention?_withinLimits {text : String} {request : Request}
    (h : ofMention? text = some request) : request.WithinLimits := by
  rw [ofMention?, Option.or_eq_some_iff] at h
  rcases h with hset | ⟨-, hexpression⟩
  · obtain ⟨s, -, hs, rfl⟩ := ofFirst?_eq_some_iff.mp hset
    exact withinLimits_repeated hs
  · obtain ⟨e, -, he, rfl⟩ := ofFirst?_eq_some_iff.mp hexpression
    exact withinLimits_single he

/-! ### Carrying out -/

/-- An evaluation answers a request: it reports on the expression asked for, with as many totals
as asked for, all of them possible. -/
structure Answered (request : Request) (v : Evaluation) : Prop where
  expression_eq : v.expression = request.expression
  length_totals : v.totals.length = request.rolls
  inRange : ∀ total ∈ v.totals, request.expression.InRange total

theorem yields_roll {request : Request} (h : request.WithinLimits) :
    Yields (request.roll : RollM G Evaluation) request.Answered := by
  have hfits := Expression.fits h.expression
  cases request with
  | single e =>
    refine Yields.bind (Expression.yields_roll hfits) fun total htotal => yields_pure ?_
    exact ⟨rfl, rfl, List.forall_mem_singleton.mpr htotal⟩
  | repeated s =>
    refine Yields.bind (Expression.yields_rollRepeatedly hfits s.repeats.toNat)
      fun totals ⟨hlength, htotals⟩ => yields_pure ?_
    exact ⟨rfl, hlength, htotals⟩

end Request

/-! ### What comes of a text -/

/-- A command is decided on its argument alone; only a request that is accepted takes words. -/
theorem exec_rollCommand (argument : String) (source : G) :
    exec (rollCommand argument) source =
      match Request.ofCommand argument with
      | .ok request => ((exec request.roll source).1.map .ok, (exec request.roll source).2)
      | .error e => (.ok (.error e), source) := by
  rw [rollCommand]
  cases Request.ofCommand argument with
  | ok request => exact exec_bind_pure request.roll Except.ok source
  | error e => rfl

theorem exec_rollCommand_eq_ok_iff {argument : String} {source source' : G} {v : Evaluation} :
    exec (rollCommand argument) source = (.ok (.ok v), source') ↔
      ∃ request, Request.ofCommand argument = .ok request ∧
        exec request.roll source = (.ok v, source') := by
  rw [exec_rollCommand]
  cases Request.ofCommand argument with
  | error e => simp
  | ok request =>
    simp [map_eq_ok_iff, Prod.ext_iff]

theorem exec_rollCommand_eq_error_iff {argument : String} {source source' : G}
    {e : RequestError} :
    exec (rollCommand argument) source = (.ok (.error e), source') ↔
      Request.ofCommand argument = .error e ∧ source = source' := by
  rw [exec_rollCommand]
  cases Request.ofCommand argument with
  | error e => simp
  | ok request => simp [map_eq_ok_iff]

theorem exec_rollMention (text : String) (enabled : Bool) (source : G) :
    exec (rollMention text enabled) source =
      match if enabled then Request.ofMention? text else none with
      | some request => ((exec request.roll source).1.map some, (exec request.roll source).2)
      | none => (.ok none, source) := by
  rw [rollMention]
  cases if enabled then Request.ofMention? text else none with
  | some request => exact exec_bind_pure request.roll some source
  | none => rfl

/-- What the argument of a roll command may lead to. -/
inductive CommandResult (argument : String) : Except RequestError Evaluation → Prop
  | rolled {e : Expression} {v : Evaluation} (within_limits : e.violation? = none)
      (answered : (Request.single e).Answered v) : CommandResult argument (.ok v)
  | refused {error : RequestError} (reason : Request.ofCommand argument = .error error) :
      CommandResult argument (.error error)

theorem yields_rollCommand (argument : String) :
    Yields (rollCommand argument : RollM G _) (CommandResult argument) := by
  rw [rollCommand]
  cases h : Request.ofCommand argument with
  | error error => exact yields_pure (.refused h)
  | ok request =>
    obtain ⟨e, -, hv, rfl⟩ := Request.ofCommand_eq_ok_iff.mp h
    have hlimits := Request.withinLimits_single hv
    exact Yields.bind (Request.yields_roll hlimits) fun v hanswered =>
      yields_pure (.rolled hv hanswered)

inductive MentionResult : Option Evaluation → Prop
  | rolled {request : Request} {v : Evaluation} (within_limits : request.WithinLimits)
      (answered : request.Answered v) : MentionResult (some v)
  | silent : MentionResult none

theorem yields_rollMention (text : String) (enabled : Bool) :
    Yields (rollMention text enabled : RollM G _) MentionResult := by
  rw [rollMention]
  split
  · next request h =>
    -- a text is read only where scanning is switched on
    have hlimits : request.WithinLimits := by
      cases enabled with
      | false => cases h
      | true => exact Request.ofMention?_withinLimits h
    exact Yields.bind (Request.yields_roll hlimits) fun v hanswered =>
      yields_pure (.rolled hlimits hanswered)
  · exact yields_pure .silent

end ChatDice
