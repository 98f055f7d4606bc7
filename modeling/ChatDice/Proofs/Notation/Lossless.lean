/-
Nothing of a roll is lost in its report.

The header of a report ends at the first closing bracket, and no number in a list of totals has a
comma, so both parts can be read again:

* **`filter_totals`**, **`splitOn_totals`** — without its spaces a list of totals is their digits with
  single commas in between, and the commas cut it where it was put together;
* **`readReport?`**, **`readReport?_text`** — the expression and the totals, read back from a report;
* **`Evaluation.text_lossless`** — two reports are equal only if they are about the same expression
  and the same totals in the same order, whether the totals are of a set or of a single roll.
-/
import Mathlib
import ChatDice.Proofs.Notation.Report

namespace ChatDice

/-! ### Lists of totals -/

/-- The characters that a total is written with: digits, behind a minus sign if it is negative. -/
def totalChars (total : Int64) : List Char :=
  total.toInt.repr.toList

theorem toList_totals (totals : List Int64) :
    (", ".intercalate (totals.map (·.toInt.repr))).toList =
      [',', ' '].intercalate (totals.map totalChars) := by
  rw [String.toList_intercalate, List.map_map]
  rfl

theorem filter_totalChars (total : Int64) :
    (totalChars total).filter (· ≠ ' ') = totalChars total := by
  rw [List.filter_eq_self]
  intro c hc
  rcases isDigit_or_minus_of_mem_repr hc with hdigit | rfl
  · rw [decide_eq_true_iff]
    rintro rfl
    exact absurd hdigit (by decide)
  · decide

/-- Spaces stand behind commas only. -/
theorem filter_totals (totals : List Int64) :
    ([',', ' '].intercalate (totals.map totalChars)).filter (· ≠ ' ') =
      [','].intercalate (totals.map totalChars) := by
  induction totals with
  | nil => rfl
  | cons total totals ih =>
    cases totals with
    | nil => simpa using filter_totalChars total
    | cons total' totals =>
      rw [List.map_cons] at ih
      rw [List.map_cons, List.map_cons, List.intercalate_cons_cons, List.intercalate_cons_cons,
        List.filter_append, ih, List.filter_append, filter_totalChars]
      rfl

theorem splitOn_totals {totals : List Int64} (h : totals ≠ []) :
    ([','].intercalate (totals.map totalChars)).splitOn ',' = totals.map totalChars := by
  refine List.splitOn_intercalate ',' ?_ (by simpa using h)
  intro digits hdigits hcomma
  obtain ⟨total, -, rfl⟩ := List.mem_map.mp hdigits
  rcases isDigit_or_minus_of_mem_repr hcomma with hdigit | heq
  · exact absurd hdigit (by decide)
  · exact absurd heq (by decide)

/-! ### Reading a report -/

/-- The total that a run of characters writes. -/
def readTotal? (chars : List Char) : Option Int64 :=
  (String.ofList chars).toInt?.map Int64.ofInt

/-- The totals in a list with commas between them, in order; spaces do not count. -/
def readTotals? (chars : List Char) : Option (List Int64) :=
  if chars = [] then some [] else ((chars.filter (· ≠ ' ')).splitOn ',').mapM readTotal?

/-- The expression and the totals that a report is about: what stands between its brackets, and the
list behind them. -/
def readReport? (report : String) : Option (Expression × List Int64) := do
  let chars := report.toList.drop 1
  let e ← Expression.ofText? (String.ofList (chars.takeWhile (· ≠ ']')))
  let totals ← readTotals? ((chars.dropWhile (· ≠ ']')).drop 2)
  return (e, totals)

theorem readTotal?_totalChars (total : Int64) : readTotal? (totalChars total) = some total := by
  rw [readTotal?, totalChars, String.ofList_toList, Int.toInt?_repr, Option.map_some,
    Int64.ofInt_toInt]

theorem totalChars_ne_nil (total : Int64) : totalChars total ≠ [] := by
  rw [totalChars, Int.repr_eq_if]
  split
  · simp
  · simp

theorem mapM_readTotal? (totals : List Int64) :
    (totals.map totalChars).mapM readTotal? = some totals := by
  induction totals with
  | nil => rfl
  | cons total totals ih =>
    rw [List.map_cons, List.mapM_cons, readTotal?_totalChars, ih]
    rfl

theorem readTotals?_intercalate (totals : List Int64) :
    readTotals? ([',', ' '].intercalate (totals.map totalChars)) = some totals := by
  cases totals with
  | nil => rfl
  | cons total totals =>
    -- only the list without totals is written as nothing
    have hne : [',', ' '].intercalate ((total :: totals).map totalChars) ≠ [] := by
      cases totals with
      | nil => simpa using totalChars_ne_nil total
      | cons total' totals => simp [List.intercalate_cons_cons]
    rw [readTotals?, if_neg hne, filter_totals, splitOn_totals (List.cons_ne_nil _ _),
      mapM_readTotal?]

namespace Evaluation

/-- What is read back from a report is what it was written for. -/
theorem readReport?_text (v : Evaluation) : readReport? v.text = some (v.expression, v.totals) := by
  rw [readReport?, List.drop_one, v.takeWhile_text, String.ofList_toList, v.expression.ofText?_text,
    v.dropWhile_text, List.drop_succ_cons, List.drop_succ_cons, List.drop_zero, toList_totals,
    readTotals?_intercalate]
  rfl

/-- Two reports are equal exactly if they are about the same expression and the same totals in the
same order, so a roll reads like a set of one roll, and how many rolls a set asked for is not in its
report. Everything else can be read back. -/
theorem text_lossless (v w : Evaluation) :
    (v.text = w.text ↔ v.expression = w.expression ∧ v.totals = w.totals) ∧
      readReport? v.text = some (v.expression, v.totals) := by
  refine ⟨⟨fun h => ?_, fun ⟨hexpression, htotals⟩ => ?_⟩, v.readReport?_text⟩
  · have hread := v.readReport?_text
    rw [h, w.readReport?_text, Option.some_inj, Prod.mk.injEq] at hread
    exact ⟨hread.1.symm, hread.2.symm⟩
  · rw [text, text, hexpression, htotals]

end Evaluation

end ChatDice
