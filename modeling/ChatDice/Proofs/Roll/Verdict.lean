/-
What texts come to, said on the numbers as they are written.

A number that is read stops at the end of its field, and only then the limits are looked at. The
ends of the fields lie so far beyond the limits that nothing comes of it: numbers of any length are
judged as if they had been kept whole.

* **`Spelling.violation?_expression`** — the limit that an expression breaks first is the one that
  the numbers written for it break first;
* **`Form.allows_iff`** — what is within the limits has exactly the numbers that are written, and
  **`Form.allowedFirst_iff`** — a search finds such a value exactly if the first word of a form in
  the text writes it;
* **`rollCommand_verdict`** — what becomes of the argument of a roll command;
* **`rollMention_verdict`** — what becomes of free text: the first roll set and the first expression
  in it decide, and nothing behind them is tried.
-/
import ChatDice.Proofs.Notation.Surrounded
import ChatDice.Proofs.Roll.Request

namespace ChatDice

open RollM

/-! ### The numbers written -/

namespace Spelling

/-- The limits are broken by the numbers written in the same order as by those that are kept. -/
theorem violation?_expression (s : Spelling) :
    s.expression.violation? =
      if 1000 < s.count.value then some .tooManyDice
      else if 100 < s.sides.value then some .tooManySides
      else if s.sides.value < 2 then some .tooFewSides
      else none := by
  have hcount : s.expression.count.toNat = min s.count.value 4294967295 := s.count.toNat_field
  have hsides : s.expression.sides.toNat = min s.sides.value 4294967295 := s.sides.toNat_field
  have hdice : maxDice < s.expression.count.toNat ↔ 1000 < s.count.value := by
    rw [hcount, maxDice]
    omega
  have hmany : maxSides < s.expression.sides.toNat ↔ 100 < s.sides.value := by
    rw [hsides, maxSides]
    omega
  have hfew : s.expression.sides.toNat < minSides ↔ s.sides.value < 2 := by
    rw [hsides, minSides]
    omega
  simp only [Expression.violation?, hdice, hmany, hfew]

/-- At most 1000 dice of 2 to 100 sides are written, and an expression has the numbers that are
written. Only the modifier may be cut off, at the ends of 64 signed bits. -/
structure Allows (s : Spelling) (e : Expression) : Prop where
  count_le : s.count.value ≤ 1000
  le_sides : 2 ≤ s.sides.value
  sides_le : s.sides.value ≤ 100
  count : e.count.toNat = s.count.value
  sides : e.sides.toNat = s.sides.value
  modifier : e.modifier.toInt = max leastInt64 (min s.modifierValue greatestInt64)

theorem violation?_expression_eq_none_iff {s : Spelling} :
    s.expression.violation? = none ↔
      s.count.value ≤ 1000 ∧ 2 ≤ s.sides.value ∧ s.sides.value ≤ 100 := by
  rw [violation?_expression]
  split_ifs with hdice hmany hfew
  · exact ⟨nofun, fun ⟨h, _, _⟩ => absurd hdice (Nat.not_lt.mpr h)⟩
  · exact ⟨nofun, fun ⟨_, _, h⟩ => absurd hmany (Nat.not_lt.mpr h)⟩
  · exact ⟨nofun, fun ⟨_, h, _⟩ => absurd hfew (Nat.not_lt.mpr h)⟩
  · exact ⟨fun _ => ⟨Nat.not_lt.mp hdice, Nat.not_lt.mp hfew, Nat.not_lt.mp hmany⟩, fun _ => rfl⟩

theorem allows_iff {s : Spelling} {e : Expression} :
    s.Allows e ↔ s.expression = e ∧ e.violation? = none := by
  have hfield : greatestUInt32 = 4294967295 := rfl
  constructor
  · rintro ⟨hdice, hfew, hmany, hcount, hsides, hmodifier⟩
    -- numbers this small do not reach the ends of their fields
    have hdenotes : s.Denotes e := ⟨by omega, by omega, hmodifier⟩
    obtain rfl := denotes_iff.mp hdenotes
    exact ⟨rfl, violation?_expression_eq_none_iff.mpr ⟨hdice, hfew, hmany⟩⟩
  · rintro ⟨rfl, hlimits⟩
    obtain ⟨hdice, hfew, hmany⟩ := violation?_expression_eq_none_iff.mp hlimits
    obtain ⟨hcount, hsides, hmodifier⟩ := denotes_iff.mpr (Eq.refl s.expression)
    exact ⟨hdice, hfew, hmany, by omega, by omega, hmodifier⟩

end Spelling

namespace SetSpelling

/-- From 1 to 30 rolls are written of an expression within the limits. -/
structure Allows (s : SetSpelling) (r : RollSet) : Prop where
  repeats_pos : 1 ≤ s.repeats.value
  repeats_le : s.repeats.value ≤ 30
  repeats : r.repeats.toNat = s.repeats.value
  expression : s.spelling.Allows r.expression

theorem allows_iff {s : SetSpelling} {r : RollSet} :
    s.Allows r ↔ s.rollSet = r ∧ r.violation? = none := by
  have hfield : greatestUInt32 = 4294967295 := rfl
  have hmost : maxRepeats = 30 := rfl
  rw [RollSet.violation?_eq_none_iff]
  constructor
  · rintro ⟨hpos, hle, hrepeats, hexpression⟩
    obtain ⟨hspelling, hlimits⟩ := Spelling.allows_iff.mp hexpression
    have hdenotes : s.Denotes r := ⟨by omega, Spelling.denotes_iff.mpr hspelling⟩
    exact ⟨denotes_iff.mp hdenotes, hlimits, by omega, by omega⟩
  · rintro ⟨rfl, hlimits, hpos, hle⟩
    have hrepeats : s.rollSet.repeats.toNat = min s.repeats.value greatestUInt32 :=
      s.repeats.toNat_field
    exact ⟨by omega, by omega, by omega, Spelling.allows_iff.mpr ⟨rfl, hlimits⟩⟩

end SetSpelling

namespace Form

/-- The numbers written are within the limits, and a value has them. -/
def Allows : (form : Form) → form.Spelled → form.Value → Prop
  | single => Spelling.Allows
  | repeated => SetSpelling.Allows

theorem allows_iff (form : Form) {s : form.Spelled} {value : form.Value} :
    form.Allows s value ↔ form.Denotes s value ∧ form.violation? value = none := by
  rw [form.denotes_iff]
  cases form with
  | single => exact Spelling.allows_iff
  | repeated => exact SetSpelling.allows_iff

/-- The first word of a form in a text, and the longest one there, writes a value within the
limits. -/
def AllowedFirst (form : Form) (text : List Char) (value : form.Value) : Prop :=
  ∃ before s after, form.OccursFirst text before (form.chars s) after ∧ form.Allows s value

theorem allowedFirst_iff {form : Form} {text : String} {value : form.Value} :
    form.AllowedFirst text.toList value ↔
      find? form text = some value ∧ form.violation? value = none := by
  rw [find?_eq_some_iff, AllowedFirst]
  constructor
  · rintro ⟨before, s, after, hfirst, hallows⟩
    obtain ⟨hdenotes, hlimits⟩ := form.allows_iff.mp hallows
    exact ⟨⟨before, s, after, hfirst, hdenotes⟩, hlimits⟩
  · rintro ⟨⟨before, s, after, hfirst, hdenotes⟩, hlimits⟩
    exact ⟨before, s, after, hfirst, form.allows_iff.mpr ⟨hdenotes, hlimits⟩⟩

end Form

/-! ### What is reported -/

/-- An evaluation is of the kind that a request asks for, on what it asks for, and with as many
totals. -/
inductive Request.Reports : Request → Evaluation → Prop
  | single (e : Expression) (total : Int64) : Reports (.single e) (.single e total)
  | repeated {r : RollSet} {totals : List Int64} (length_totals : totals.length = r.repeats.toNat) :
      Reports (.repeated r) (.repeated r totals)

variable {G : Type} [WordSource G]

theorem Request.yields_reports {request : Request} (h : request.WithinLimits) :
    Yields (request.roll : RollM G Evaluation) request.Reports := by
  have hfits := Expression.fits h.expression
  cases request with
  | single e =>
    exact Yields.bind (Expression.yields_roll hfits) fun total _ => yields_pure (.single e total)
  | repeated r =>
    exact Yields.bind (Expression.yields_rollRepeatedly hfits r.repeats.toNat)
      fun totals ⟨hlength, _⟩ => yields_pure (.repeated hlength)

/-! ### Commands -/

/-- What the trimmed argument of a roll command comes to. The limits are looked at in the order of
the cases, on the numbers that are written. -/
inductive CommandVerdict (written : List Char) : Except RequestError Request → Prop
  | usage (foreign : written ∉ expressionLanguage) : CommandVerdict written (.error .usage)
  | tooManyDice {s : Spelling} (chars : s.chars = written) (count : 1000 < s.count.value) :
      CommandVerdict written (.error (.outOfBounds .tooManyDice))
  | tooManySides {s : Spelling} (chars : s.chars = written) (count : s.count.value ≤ 1000)
      (sides : 100 < s.sides.value) :
      CommandVerdict written (.error (.outOfBounds .tooManySides))
  | tooFewSides {s : Spelling} (chars : s.chars = written) (count : s.count.value ≤ 1000)
      (sides : s.sides.value < 2) :
      CommandVerdict written (.error (.outOfBounds .tooFewSides))
  | accepted {s : Spelling} {e : Expression} (chars : s.chars = written) (allowed : s.Allows e) :
      CommandVerdict written (.ok (.single e))

namespace Request

theorem ofCommand_of_violation {argument : String} {s : Spelling} {v : Violation}
    (hchars : s.chars = (trim argument).toList) (h : s.expression.violation? = some v) :
    ofCommand argument = .error (.outOfBounds v) := by
  have hread : Expression.ofText? (trim argument) = some s.expression :=
    Expression.ofText?_eq_some_iff.mpr ⟨s, hchars, Spelling.denotes_iff.mpr rfl⟩
  exact ofCommand_eq_error_iff.mpr (.inr ⟨s.expression, v, hread, h, rfl⟩)

theorem ofCommand_of_allows {argument : String} {s : Spelling} {e : Expression}
    (hchars : s.chars = (trim argument).toList) (h : s.Allows e) :
    ofCommand argument = .ok (.single e) := by
  obtain ⟨hexpression, hlimits⟩ := Spelling.allows_iff.mp h
  have hread : Expression.ofText? (trim argument) = some e :=
    Expression.ofText?_eq_some_iff.mpr ⟨s, hchars, Spelling.denotes_iff.mpr hexpression⟩
  exact ofCommand_eq_ok_iff.mpr ⟨e, hread, hlimits, rfl⟩

theorem ofCommand_of_not_mem {argument : String}
    (h : (trim argument).toList ∉ expressionLanguage) : ofCommand argument = .error .usage := by
  have hread : Expression.ofText? (trim argument) = none := by
    rw [Option.eq_none_iff_forall_ne_some]
    intro e he
    obtain ⟨s, hchars, -⟩ := Expression.ofText?_eq_some_iff.mp he
    exact h (mem_expressionLanguage_iff.mpr ⟨s, hchars⟩)
  exact ofCommand_eq_error_iff.mpr (.inl ⟨hread, rfl⟩)

end Request

theorem exists_commandVerdict (written : List Char) : ∃ verdict, CommandVerdict written verdict := by
  by_cases hword : written ∈ expressionLanguage
  · obtain ⟨s, hchars⟩ := mem_expressionLanguage_iff.mp hword
    by_cases hdice : 1000 < s.count.value
    · exact ⟨_, .tooManyDice hchars hdice⟩
    · have hcount : s.count.value ≤ 1000 := Nat.le_of_not_lt hdice
      by_cases hmany : 100 < s.sides.value
      · exact ⟨_, .tooManySides hchars hcount hmany⟩
      · by_cases hfew : s.sides.value < 2
        · exact ⟨_, .tooFewSides hchars hcount hfew⟩
        · have hlimits : s.expression.violation? = none := by
            rw [Spelling.violation?_expression_eq_none_iff]
            omega
          exact ⟨_, .accepted hchars (Spelling.allows_iff.mpr ⟨rfl, hlimits⟩)⟩
  · exact ⟨_, .usage hword⟩

theorem CommandVerdict.eq_ofCommand {argument : String} {verdict : Except RequestError Request}
    (h : CommandVerdict (trim argument).toList verdict) : verdict = Request.ofCommand argument := by
  cases h with
  | usage hforeign => exact (Request.ofCommand_of_not_mem hforeign).symm
  | @tooManyDice s hchars hdice =>
    refine (Request.ofCommand_of_violation hchars ?_).symm
    rw [s.violation?_expression, if_pos hdice]
  | @tooManySides s hchars hcount hmany =>
    refine (Request.ofCommand_of_violation hchars ?_).symm
    rw [s.violation?_expression, if_neg (by omega), if_pos hmany]
  | @tooFewSides s hchars hcount hfew =>
    refine (Request.ofCommand_of_violation hchars ?_).symm
    rw [s.violation?_expression, if_neg (by omega), if_neg (by omega), if_pos hfew]
  | accepted hchars hallowed => exact (Request.ofCommand_of_allows hchars hallowed).symm

theorem commandVerdict_iff {argument : String} {verdict : Except RequestError Request} :
    CommandVerdict (trim argument).toList verdict ↔ verdict = Request.ofCommand argument := by
  refine ⟨CommandVerdict.eq_ofCommand, ?_⟩
  rintro rfl
  obtain ⟨verdict, h⟩ := exists_commandVerdict (trim argument).toList
  rwa [← h.eq_ofCommand]

/-- There is one verdict on the argument of a roll command, and no source of words has a part in it:
from every source, what is refused is refused for the same reason and leaves the source as it is,
and what is accepted is rolled. -/
theorem rollCommand_verdict (argument : String) :
    Trimmed argument.toList (trim argument).toList ∧
    ∃ verdict, (∀ v, CommandVerdict (trim argument).toList v ↔ v = verdict) ∧
      ∀ (G : Type) [WordSource G] (source : G),
        match verdict with
        | .error e => exec (rollCommand argument) source = (.ok (.error e), source)
        | .ok request => ∃ v left,
            exec (rollCommand argument) source = (.ok (.ok v), left) ∧ request.Reports v := by
  refine ⟨trimmed_trim argument, Request.ofCommand argument, fun _ => commandVerdict_iff,
    fun G _ source => ?_⟩
  cases hcommand : Request.ofCommand argument with
  | error e => exact exec_rollCommand_eq_error_iff.mpr ⟨hcommand, rfl⟩
  | ok request =>
    have hlimits := Request.ofCommand_withinLimits hcommand
    obtain ⟨v, left, hroll, hreports⟩ := (Request.yields_reports hlimits).exists_exec source
    exact ⟨v, left, exec_rollCommand_eq_ok_iff.mpr ⟨request, hcommand, hroll⟩, hreports⟩

/-! ### Free text -/

/-- What free text comes to. The first roll set in it and the first expression in it are all that
counts, and the expression only if the roll set is missing or not allowed. -/
inductive MentionVerdict (text : List Char) : Option Request → Prop
  | repeated {r : RollSet} (set : Form.repeated.AllowedFirst text r) :
      MentionVerdict text (some (.repeated r))
  | single {e : Expression} (noSet : ∀ r, ¬ Form.repeated.AllowedFirst text r)
      (expression : Form.single.AllowedFirst text e) : MentionVerdict text (some (.single e))
  | nothing (noSet : ∀ r, ¬ Form.repeated.AllowedFirst text r)
      (noExpression : ∀ e, ¬ Form.single.AllowedFirst text e) : MentionVerdict text none

theorem exists_mentionVerdict (text : List Char) : ∃ request?, MentionVerdict text request? := by
  by_cases hset : ∃ r, Form.repeated.AllowedFirst text r
  · obtain ⟨r, hr⟩ := hset
    exact ⟨_, .repeated hr⟩
  · have hnone := not_exists.mp hset
    by_cases hexpression : ∃ e, Form.single.AllowedFirst text e
    · obtain ⟨e, he⟩ := hexpression
      exact ⟨_, .single hnone he⟩
    · exact ⟨_, .nothing hnone (not_exists.mp hexpression)⟩

namespace Request

theorem ofFirst?_of_allowedFirst {form : Form} {text : String} {value : form.Value}
    (h : form.AllowedFirst text.toList value) :
    ofFirst? form text = some (form.request value) := by
  obtain ⟨hfind, hlimits⟩ := Form.allowedFirst_iff.mp h
  exact ofFirst?_eq_some_iff.mpr ⟨value, hfind, hlimits, rfl⟩

theorem ofFirst?_eq_none {form : Form} {text : String}
    (h : ∀ value, ¬ form.AllowedFirst text.toList value) : ofFirst? form text = none := by
  refine Option.eq_none_iff_forall_ne_some.mpr fun request hrequest => ?_
  obtain ⟨value, hfind, hlimits, -⟩ := ofFirst?_eq_some_iff.mp hrequest
  exact h value (Form.allowedFirst_iff.mpr ⟨hfind, hlimits⟩)

end Request

theorem MentionVerdict.eq_ofMention? {text : String} {request? : Option Request}
    (h : MentionVerdict text.toList request?) : request? = Request.ofMention? text := by
  rw [Request.ofMention?]
  cases h with
  | repeated hset =>
    rw [Request.ofFirst?_of_allowedFirst hset, Option.some_or]
    rfl
  | single hnone hexpression =>
    rw [Request.ofFirst?_eq_none hnone, Option.none_or,
      Request.ofFirst?_of_allowedFirst hexpression]
    rfl
  | nothing hnone hnothing =>
    rw [Request.ofFirst?_eq_none hnone, Option.none_or, Request.ofFirst?_eq_none hnothing]

theorem mentionVerdict_iff {text : String} {request? : Option Request} :
    MentionVerdict text.toList request? ↔ request? = Request.ofMention? text := by
  refine ⟨MentionVerdict.eq_ofMention?, ?_⟩
  rintro rfl
  obtain ⟨request?, h⟩ := exists_mentionVerdict text.toList
  rwa [← h.eq_ofMention?]

/-- There is one verdict on free text, and no source of words has a part in it: from every source
it asks for the same, and if it asks for nothing, nothing is rolled and the source stays as it is. -/
theorem rollMention_verdict (text : String) :
    ∃ verdict, (∀ v, MentionVerdict text.toList v ↔ v = verdict) ∧
      ∀ (G : Type) [WordSource G] (source : G),
        match verdict with
        | none => exec (rollMention text true) source = (.ok none, source)
        | some request => ∃ v left,
            exec (rollMention text true) source = (.ok (some v), left) ∧ request.Reports v := by
  refine ⟨Request.ofMention? text, fun _ => mentionVerdict_iff, fun G _ source => ?_⟩
  rw [exec_rollMention, if_pos rfl]
  cases hmention : Request.ofMention? text with
  | none => rfl
  | some request =>
    have hlimits := Request.ofMention?_withinLimits hmention
    obtain ⟨v, left, hroll, hreports⟩ := (Request.yields_reports hlimits).exists_exec source
    refine ⟨v, left, ?_, hreports⟩
    dsimp only
    rw [hroll]
    rfl

/-- The set and its expression have dice with too many sides, and what stands behind them is not
looked at. -/
example : Request.ofMention? "3#2d500 or 1d8" = none := by rfl

end ChatDice
