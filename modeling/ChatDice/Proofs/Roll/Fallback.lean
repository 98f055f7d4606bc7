/-
What becomes of a roll set that is refused.

Free text is searched twice: for a roll set, and if that is refused, for an expression. The two
searches know nothing of each other. Still, the second one passes over the number of rolls and its
`#`, and comes upon the expression of the refused set, with the modifier that the set has. So the
dice of the set are rolled once after all, unless another expression stands further in front or the
expression itself was the reason for the refusal.

* **`RollSet.violation?_eq_some_iff`** — the two kinds of reasons to refuse a set;
* **`LeadingSet.occursFirst_single`** — the expression of a set is the first one in the text;
* **`Request.ofMention?_of_leadingSet`** — what the text asks for in place of the set;
* **`rollMention_of_refused_set`** — what is rolled in place of the set.
-/
import ChatDice.Proofs.Roll.Agreement
import ChatDice.Proofs.Roll.Verdict

namespace ChatDice

open RollM

/-! ### Refused sets -/

/-- A set is refused for its expression, or for the number of rolls of an expression that is within
the limits. -/
theorem RollSet.violation?_eq_some_iff {r : RollSet} {v : Violation} :
    r.violation? = some v ↔
      r.expression.violation? = some v ∨
        (v = .tooManyRepeats ∧ r.expression.violation? = none ∧
          (r.repeats.toNat < 1 ∨ maxRepeats < r.repeats.toNat)) := by
  rw [violation?]
  cases hexpression : r.expression.violation? with
  | some w => simp
  | none => simp [eq_comm, and_comm]

/-! ### The expression of a set -/

/-- The characters of a roll set in front of its expression. -/
def SetSpelling.lead (s : SetSpelling) : List Char :=
  s.repeats.chars ++ ['#']

theorem SetSpelling.chars_eq_lead_append (s : SetSpelling) :
    s.chars = s.lead ++ s.spelling.chars := by
  simp [chars, lead]

/-- The first roll set of a text, where no expression starts in front of the one in the set. -/
structure LeadingSet (text before : List Char) (s : SetSpelling) (after : List Char) : Prop
    extends Form.repeated.OccursFirst text before s.chars after where
  foremost : ∀ before' word' after', Form.single.Occurs text before' word' after' →
    (before ++ s.lead).length ≤ before'.length

namespace LeadingSet

variable {text before after : List Char} {s : SetSpelling}

/-- Where the expression of a set is the first one of a text, it is also the longest one there: a
longer one would make the set longer. -/
theorem occursFirst_single (h : LeadingSet text before s after) :
    Form.single.OccursFirst text (before ++ s.lead) s.spelling.chars after where
  split := by rw [h.split, s.chars_eq_lead_append, List.append_assoc, List.append_assoc,
    List.append_assoc, List.append_assoc]
  mem := Form.single.mem_language_iff.mpr ⟨s.spelling, rfl⟩
  leftmost := h.foremost
  longest word' after' h' := by
    obtain ⟨longer, rfl⟩ := Form.single.mem_language_iff.mp h'.mem
    let set : SetSpelling := ⟨s.repeats, longer⟩
    have hset : Form.repeated.Occurs text before set.chars after' := by
      refine ⟨?_, Form.repeated.mem_language_iff.mpr ⟨set, rfl⟩⟩
      rw [h'.split, set.chars_eq_lead_append]
      simp [set, SetSpelling.lead, Form.chars]
    have hle := h.longest set.chars after' hset
    rw [set.chars_eq_lead_append, s.chars_eq_lead_append, List.length_append,
      List.length_append] at hle
    exact Nat.le_of_add_le_add_left hle

end LeadingSet

/-- Both searches of a text tell whether its first set is such a set: they find the set, and an
expression right behind the `#` of the set. -/
theorem exists_leadingSet_of_findSpelling? {text : String} {set : Located SetSpelling}
    {expression : Located Spelling} (hset : findSpelling? .repeated text = some set)
    (hexpression : findSpelling? .single text = some expression)
    (hstart : expression.start = set.start + set.value.lead.length) :
    ∃ before after, LeadingSet text.toList before set.value after := by
  obtain ⟨before, after, hfirst, hbefore, -⟩ := occursFirst_of_findSpelling? hset
  obtain ⟨front, back, hsingle, hfront, -⟩ := occursFirst_of_findSpelling? hexpression
  refine ⟨before, after, hfirst, fun before' word' after' h' => ?_⟩
  have hlead : (charBytes set.value.lead).length = set.value.lead.length := by
    rw [charBytes_of_ne, List.length_map]
    intro c hc
    have hmem : c ∈ set.value.chars := by
      rw [set.value.chars_eq_lead_append]
      exact List.mem_append_left _ hc
    exact Form.repeated.ofChar_ne_other set.value c hmem
  have hsame : (before ++ set.value.lead) ++ (set.value.spelling.chars ++ after) =
      front ++ (expression.value.chars ++ back) := by
    have hset : text.toList = before ++ set.value.chars ++ after := hfirst.split
    have hexpression : text.toList = front ++ expression.value.chars ++ back := hsingle.split
    rw [← List.append_assoc front, ← hexpression, hset, set.value.chars_eq_lead_append]
    simp only [List.append_assoc]
  calc (before ++ set.value.lead).length ≤ front.length := by
        refine length_le_of_length_charBytes_le hsame ?_
        rw [charBytes_append, List.length_append, hlead]
        omega
    _ ≤ before'.length := hsingle.leftmost _ _ _ h'

/-! ### Free text -/

variable {text : String} {before after : List Char} {s : SetSpelling} {r : RollSet}

theorem find?_repeated_of_leadingSet (h : LeadingSet text.toList before s after)
    (hdenotes : s.Denotes r) : find? .repeated text = some r :=
  find?_eq_some_iff.mpr ⟨before, s, after, h.toOccursFirst, hdenotes⟩

theorem find?_single_of_leadingSet (h : LeadingSet text.toList before s after)
    (hdenotes : s.Denotes r) : find? .single text = some r.expression :=
  find?_eq_some_iff.mpr
    ⟨before ++ s.lead, s.spelling, after, h.occursFirst_single, hdenotes.expression⟩

/-- In place of a refused set, a text asks for the expression of the set, if that is within the
limits. -/
theorem Request.ofMention?_of_leadingSet (h : LeadingSet text.toList before s after)
    (hdenotes : s.Denotes r) {v : Violation} (hrefused : r.violation? = some v) :
    ofMention? text =
      if r.expression.violation?.isNone then some (.single r.expression) else none := by
  have hset : ofFirst? .repeated text = none := by
    rw [ofFirst?, find?_repeated_of_leadingSet h hdenotes, Option.bind_some, Form.violation?,
      hrefused]
    rfl
  rw [ofMention?, hset, Option.none_or, ofFirst?, find?_single_of_leadingSet h hdenotes,
    Option.bind_some]
  rfl

variable {G : Type} [WordSource G]

/-- Let the first roll set of a text be refused, and let no expression start in front of the one in
the set. If the number of rolls is the reason, the expression of the set is rolled once, in the same
way as by a roll command with its canonical text: from the same source, the total is the same and the
same source is left behind. If the expression is the reason, nothing is rolled, and the source stays
as it is. -/
theorem rollMention_of_refused_set {v : Violation} (hlead : LeadingSet text.toList before s after)
    (hdenotes : s.Denotes r) (hrefused : r.violation? = some v) (source : G) :
    match v with
    | .tooManyRepeats => ∃ total left,
        exec (rollMention text true) source = (.ok (some (.single r.expression total)), left) ∧
        exec (rollCommand r.expression.text) source =
          (.ok (.ok (.single r.expression total)), left)
    | .tooManyDice | .tooManySides | .tooFewSides =>
        exec (rollMention text true) source = (.ok none, source) := by
  have hmention := Request.ofMention?_of_leadingSet hlead hdenotes hrefused
  rcases RollSet.violation?_eq_some_iff.mp hrefused with hexpression | ⟨rfl, hexpression, -⟩
  · -- the limits of an expression have nothing to do with a number of rolls
    have hne : v ≠ .tooManyRepeats := fun heq =>
      r.expression.violation?_ne_tooManyRepeats (heq ▸ hexpression)
    have hnothing : exec (rollMention text true) source = (.ok none, source) := by
      rw [exec_rollMention, if_pos rfl, hmention, hexpression]
      rfl
    cases v with
    | tooManyRepeats => exact absurd rfl hne
    | tooManyDice | tooManySides | tooFewSides => exact hnothing
  · have hlimits := Request.withinLimits_single hexpression
    have hsingle : Request.ofMention? text = some (.single r.expression) := by
      rw [hmention, hexpression, Option.isNone_none, if_pos rfl]
    obtain ⟨evaluation, left, hroll, hreports⟩ := (Request.yields_reports hlimits).exists_exec source
    cases hreports with
    | single _ total =>
      refine ⟨total, left, ?_, ?_⟩
      · rw [exec_rollMention, if_pos rfl, hsingle]
        dsimp only
        rw [hroll]
        rfl
      · exact exec_rollCommand_eq_ok_iff.mpr ⟨_, Request.ofCommand_text hexpression, hroll⟩

/-- A set of too many rolls, with a sign behind it that belongs to nothing; and a set whose dice have
too many sides, with dice behind it that are not looked at. -/
theorem rollMention_of_refused_set_in_text :
    let numeral (d : Fin 10) (digits : List (Fin 10)) : Numeral :=
      ⟨d :: digits, List.cons_ne_nil d digits⟩
    let rolls : SetSpelling :=
      ⟨numeral 3 [1], numeral 2 [], numeral 6 [], some ⟨.plus, numeral 0 [1]⟩⟩
    let sides : SetSpelling := ⟨numeral 3 [], numeral 2 [], numeral 5 [0, 0], none⟩
    let source : Script := ⟨#[0xffffffff, 0], by decide, 0⟩
    ((∃ before after, LeadingSet "é#31#2d6+01-".toList before rolls after) ∧
      rolls.Denotes ⟨31, 2, 6, 1⟩ ∧ (⟨31, 2, 6, 1⟩ : RollSet).violation? = some .tooManyRepeats ∧
      ∃ total left,
        exec (rollMention "é#31#2d6+01-" true) source =
          (.ok (some (.single ⟨2, 6, 1⟩ total)), left) ∧
        exec (rollCommand "2d6+1") source = (.ok (.ok (.single ⟨2, 6, 1⟩ total)), left)) ∧
    (∃ before after, LeadingSet "3#2d500 or 1d8".toList before sides after) ∧
      sides.Denotes ⟨3, 2, 500, 0⟩ ∧ (⟨3, 2, 500, 0⟩ : RollSet).violation? = some .tooManySides ∧
      exec (rollMention "3#2d500 or 1d8" true) source = (.ok none, source) := by
  intro numeral rolls sides source
  have hsetRolls : findSpelling? .repeated "é#31#2d6+01-" = some ⟨3, 12, rolls⟩ := rfl
  have hsingleRolls : findSpelling? .single "é#31#2d6+01-" = some ⟨6, 12, rolls.spelling⟩ := rfl
  have hsetSides : findSpelling? .repeated "3#2d500 or 1d8" = some ⟨0, 7, sides⟩ := rfl
  have hsingleSides : findSpelling? .single "3#2d500 or 1d8" = some ⟨2, 7, sides.spelling⟩ := rfl
  obtain ⟨before, after, hrolls⟩ := exists_leadingSet_of_findSpelling? hsetRolls hsingleRolls rfl
  obtain ⟨before', after', hsides⟩ := exists_leadingSet_of_findSpelling? hsetSides hsingleSides rfl
  have hrollsDenote : rolls.Denotes ⟨31, 2, 6, 1⟩ := SetSpelling.denotes_iff.mpr rfl
  have hsidesDenote : sides.Denotes ⟨3, 2, 500, 0⟩ := SetSpelling.denotes_iff.mpr rfl
  refine ⟨⟨⟨before, after, hrolls⟩, hrollsDenote, rfl, ?_⟩, ⟨before', after', hsides⟩, hsidesDenote,
    rfl, ?_⟩
  · exact rollMention_of_refused_set hrolls hrollsDenote rfl source
  · exact rollMention_of_refused_set hsides hsidesDenote rfl source

end ChatDice
