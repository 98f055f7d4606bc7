/-
What the header of a report says.

A report puts the expression in brackets in front of the totals. No expression has a bracket in
its written form, so the header ends at the first closing bracket:

* **`Evaluation.toList_text`** — a report as characters, in three parts;
* **`Evaluation.takeWhile_text`** — what stands between the first two brackets is the expression;
* **`Evaluation.expression_eq_of_text_eq`** — equal reports are about the same expression;
* **`Evaluation.of_mem_text`** — the characters that reports are made of;
* **`Evaluation.header_read_back`** — a report is dice notation again: the search finds the
  expression in the header and nothing else, whatever the totals are.
-/
import ChatDice.Proofs.Notation.RoundTrip
import ChatDice.Proofs.Notation.Surrounded

namespace ChatDice

theorem Expression.bracket_not_mem_text (e : Expression) : ']' ∉ e.text.toList := by
  obtain ⟨s, hchars, _⟩ := e.exists_spelling
  rw [← hchars]
  intro h
  exact absurd (show Symbol.ofChar ']' = .other by decide) (Form.single.ofChar_ne_other s ']' h)

theorem Expression.ne_bracket_of_mem_text (e : Expression) :
    ∀ c ∈ e.text.toList, decide (c ≠ ']') = true := by
  intro c hc
  rw [decide_eq_true_iff]
  rintro rfl
  exact e.bracket_not_mem_text hc

theorem Expression.text_injective : Function.Injective Expression.text := by
  intro e e' h
  have hread := e.ofText?_text
  rw [h, e'.ofText?_text] at hread
  exact (Option.some.inj hread).symm

namespace Evaluation

theorem toList_text (v : Evaluation) :
    v.text.toList = '[' :: (v.expression.text.toList ++
      ']' :: ' ' :: (", ".intercalate (v.totals.map (·.toInt.repr))).toList) := by
  simp [text]

/-- What stands between the first two brackets is the expression. -/
theorem takeWhile_text (v : Evaluation) :
    v.text.toList.tail.takeWhile (· ≠ ']') = v.expression.text.toList := by
  rw [toList_text, List.tail_cons, List.takeWhile_append_of_pos v.expression.ne_bracket_of_mem_text]
  simp

/-- Behind the expression there are a bracket, a space and the totals. -/
theorem dropWhile_text (v : Evaluation) :
    v.text.toList.tail.dropWhile (· ≠ ']') =
      ']' :: ' ' :: (", ".intercalate (v.totals.map (·.toInt.repr))).toList := by
  rw [toList_text, List.tail_cons, List.dropWhile_append_of_pos v.expression.ne_bracket_of_mem_text]
  simp

theorem expression_eq_of_text_eq {v w : Evaluation} (h : v.text = w.text) :
    v.expression = w.expression := by
  have hheader := v.takeWhile_text
  rw [h, w.takeWhile_text] at hheader
  exact Expression.text_injective (String.toList_inj.mp hheader.symm)

end Evaluation

/-! ### The characters of a report -/

theorem isDigit_or_minus_of_mem_repr {x : Int} {c : Char} (h : c ∈ x.repr.toList) :
    c.isDigit ∨ c = '-' := by
  have hnat {n : Nat} (h : c ∈ n.repr.toList) : c.isDigit := by
    obtain ⟨numeral, hchars, _⟩ := Numeral.exists_repr n
    rw [← hchars] at h
    exact Numeral.isDigit_of_mem_chars h
  rw [Int.repr_eq_if] at h
  split at h
  · exact .inl (hnat h)
  · rw [String.toList_append, List.mem_append] at h
    rcases h with hsign | hmagnitude
    · exact .inr (List.mem_singleton.mp hsign)
    · exact .inl (hnat hmagnitude)

/-- Totals are written with digits and minus signs, and with commas and spaces between them. -/
theorem of_mem_totals {totals : List Int64} {c : Char}
    (h : c ∈ (", ".intercalate (totals.map (·.toInt.repr))).toList) :
    c.isDigit ∨ c = '-' ∨ c = ',' ∨ c = ' ' := by
  have hnumber {x : Int} (h : c ∈ x.repr.toList) : c.isDigit ∨ c = '-' ∨ c = ',' ∨ c = ' ' :=
    (isDigit_or_minus_of_mem_repr h).imp_right .inl
  induction totals with
  | nil => simp at h
  | cons total totals ih =>
    cases totals with
    | nil =>
      rw [List.map_singleton, String.intercalate_singleton] at h
      exact hnumber h
    | cons total' totals =>
      rw [List.map_cons, List.map_cons, String.intercalate_cons_cons, String.toList_append,
        String.toList_append, List.mem_append, List.mem_append] at h
      rcases h with (hfirst | hseparator) | hrest
      · exact hnumber hfirst
      · have hcases : c = ',' ∨ c = ' ' := by simpa using hseparator
        exact .inr (.inr hcases)
      · exact ih hrest

namespace Evaluation

/-- A character of a report stands in the expression, or is one of the few that frame it and write
the totals. -/
theorem of_mem_text {v : Evaluation} {c : Char} (h : c ∈ v.text.toList) :
    c ∈ v.expression.text.toList ∨ c ∈ ['[', ']', ' ', ',', '-'] ∨ c.isDigit := by
  rw [toList_text, List.mem_cons, List.mem_append, List.mem_cons, List.mem_cons] at h
  rcases h with rfl | hheader | rfl | rfl | htotals
  · simp
  · exact .inl hheader
  · simp
  · simp
  · rcases of_mem_totals htotals with hdigit | rfl | rfl | rfl
    · exact .inr (.inr hdigit)
    · simp
    · simp
    · simp

theorem hash_not_mem_text (v : Evaluation) : '#' ∉ v.text.toList := by
  intro h
  rcases of_mem_text h with hheader | hframe | hdigit
  · obtain ⟨s, hchars, _⟩ := v.expression.exists_spelling
    rw [← hchars] at hheader
    exact s.hash_not_mem_chars hheader
  · exact absurd hframe (by decide)
  · exact absurd hdigit (by decide)

/-! ### Reading a report again -/

/-- The expression in the header is bracketed, and a bracket separates. -/
theorem find?_single_text (v : Evaluation) : find? .single v.text = some v.expression := by
  obtain ⟨s, hchars, hdenotes⟩ := v.expression.exists_spelling
  have hopen : ∀ c ∈ ['['], Symbol.ofChar c = .other :=
    List.forall_mem_singleton.mpr (by decide)
  have hclose : Symbol.ofChar ']' = .other := by decide
  have hheader : find? .single v.expression.text = some v.expression :=
    find?_of_chars_eq hchars hdenotes
  rw [← String.ofList_toList (s := v.text), toList_text, ← List.singleton_append,
    find?_other_append .single hopen, find?_append_cons .single hclose, String.ofList_toList,
    hheader, Option.some_or]

theorem find?_repeated_text (v : Evaluation) : find? .repeated v.text = none :=
  find?_eq_none_iff.mpr (not_occurs_repeated_of_hash_not_mem v.hash_not_mem_text)

/-- Of every report, whatever the numbers in it are and however many totals follow, the search for
an expression finds the one that is reported on, and the search for a roll set finds nothing. What
stands between the opening bracket in front and the first closing bracket is read as the same
expression. -/
theorem header_read_back (v : Evaluation) :
    find? .single v.text = some v.expression ∧ find? .repeated v.text = none ∧
    ∃ header rest, v.text.toList = '[' :: header ++ ']' :: rest ∧ ']' ∉ header ∧
      Expression.ofText? (String.ofList header) = some v.expression := by
  refine ⟨v.find?_single_text, v.find?_repeated_text, v.expression.text.toList, _, v.toList_text,
    v.expression.bracket_not_mem_text, ?_⟩
  rw [String.ofList_toList]
  exact v.expression.ofText?_text

end Evaluation

end ChatDice
