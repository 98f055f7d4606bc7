/-
The ends of the range of an expression that is read from a text.

A text may write any number of dice and of sides, and each is kept up to the end of its field. So
all expressions are read from texts, also those whose dice add up to more than 64 signed bits hold.
Adding the modifier stops at the ends of 64 signed bits, but the product of dice and sides does not:
it has to fit, or the greatest total is missing.

* **`Expression.greatest_eq_ok_iff`**, **`Expression.greatest_eq_error_iff`** — when there is a
  greatest total, and the only fault there can be instead;
* **`Expression.least_le_of_greatest`** — the ends are in order if the dice have sides;
* **`Expression.ReadFrom`** — the ways to read an expression from a text; every expression is read
  from some text (**`Expression.readFrom_text`**);
* **`Expression.ReadFrom.range_iff_product_le`** — the numbers that are written decide whether the
  range of an expression comes out;
* **`Expression.greatest_overflows_when_read`** — a text that is read and has no greatest total.
-/
import ChatDice.Proofs.Notation.RoundTrip
import ChatDice.Proofs.Roll.Range

namespace ChatDice

namespace Expression

/-! ### The ends of a range -/

variable {e : Expression} {top : Int64}

theorem greatest_eq_ok_iff :
    e.greatest = .ok top ↔ e.count.toNat * e.sides.toNat ≤ greatestInt64 ∧
      addModifier (e.count.toNat * e.sides.toNat) e.modifier = top := by
  by_cases hfit : e.count.toNat * e.sides.toNat ≤ greatestInt64
  · simp only [greatest, hfit, if_true, Except.ok.injEq, true_and]
  · simp only [greatest, hfit, if_false, reduceCtorEq, false_and]

theorem greatest_eq_error_iff {fault : Fault} :
    e.greatest = .error fault ↔
      greatestInt64 < e.count.toNat * e.sides.toNat ∧ fault = .productOverflow := by
  rw [← Nat.not_le]
  by_cases hfit : e.count.toNat * e.sides.toNat ≤ greatestInt64
  · simp only [greatest, hfit, if_true, reduceCtorEq, not_true, false_and]
  · simp only [greatest, hfit, if_false, Except.error.injEq, not_false_eq_true, true_and, eq_comm]

/-- Dice with sides add up to most when they show their highest faces. Without sides, the sum of the
ones would be the greater one. -/
theorem least_le_of_greatest (hsides : 0 < e.sides.toNat) (h : e.greatest = .ok top) :
    e.least ≤ top := by
  obtain ⟨-, rfl⟩ := greatest_eq_ok_iff.mp h
  exact addModifier_mono (Nat.le_mul_of_pos_right _ hsides) e.modifier

theorem exists_greatest_iff (hsides : 0 < e.sides.toNat) :
    (∃ top, e.greatest = .ok top ∧ e.least ≤ top) ↔
      e.count.toNat * e.sides.toNat ≤ greatestInt64 := by
  constructor
  · rintro ⟨top, htop, -⟩
    exact (greatest_eq_ok_iff.mp htop).1
  · intro hfit
    have htop := greatest_eq_ok_iff.mpr ⟨hfit, rfl⟩
    exact ⟨_, htop, least_le_of_greatest hsides htop⟩

/-- What may be rolled has a range. -/
theorem exists_greatest_of_violation? (h : e.violation? = none) :
    ∃ top, e.greatest = .ok top ∧ e.least ≤ top :=
  (exists_greatest_iff (fits h).sides_pos).mpr (fits h).product_le

/-! ### Reading -/

/-- An expression is read from a text: it is what the whole text spells, or the first expression in
it, or the expression of the first roll set in it. -/
inductive ReadFrom (text : String) : Expression → Prop
  | whole {e : Expression} (read : ofText? text = some e) : ReadFrom text e
  | first {e : Expression} (found : find? .single text = some e) : ReadFrom text e
  | firstSet {r : RollSet} (found : find? .repeated text = some r) : ReadFrom text r.expression

/-- Every expression is read from some text, so reading alone keeps no product small. -/
theorem readFrom_text (e : Expression) : e.ReadFrom e.text :=
  .whole e.ofText?_text

/-- An expression that is read from a text is written there. -/
theorem ReadFrom.exists_spelling {text : String} (h : e.ReadFrom text) :
    ∃ s : Spelling, s.chars <:+: text.toList ∧ s.Denotes e := by
  cases h with
  | whole read =>
    obtain ⟨s, hchars, hdenotes⟩ := ofText?_eq_some_iff.mp read
    exact ⟨s, hchars ▸ List.infix_refl _, hdenotes⟩
  | first found =>
    obtain ⟨before, s, after, hfirst, hdenotes⟩ := find?_eq_some_iff.mp found
    exact ⟨s, ⟨before, after, hfirst.split.symm⟩, hdenotes⟩
  | firstSet found =>
    obtain ⟨before, s, after, hfirst, hdenotes⟩ := find?_eq_some_iff.mp found
    have hset : s.spelling.chars <:+: s.chars :=
      (List.suffix_cons '#' s.spelling.chars).isInfix.trans (List.suffix_append _ _).isInfix
    exact ⟨s.spelling, hset.trans ⟨before, after, hfirst.split.symm⟩, hdenotes.expression⟩

/-- Let an expression be read from a text, and let its dice have sides. Take the numbers of dice and
of sides that are written for it, each cut off at the end of its field. The range of the expression
comes out with its ends in order exactly if the product of the two fits in 64 signed bits, and if it
does not, the product is the fault. The ends are the sums of the dice and the modifier, stopped at
the ends of 64 signed bits; for the least total there is no condition. -/
theorem ReadFrom.range_iff_product_le {text : String} (h : e.ReadFrom text)
    (hsides : 0 < e.sides.toNat) :
    ∃ s : Spelling, s.chars <:+: text.toList ∧ s.Denotes e ∧
      let count := min s.count.value greatestUInt32
      let product := count * min s.sides.value greatestUInt32
      ((∃ top, e.greatest = .ok top ∧ e.least ≤ top) ↔ product ≤ greatestInt64) ∧
      (e.greatest = .error .productOverflow ↔ greatestInt64 < product) ∧
      e.least.toInt = max leastInt64 (min (count + e.modifier.toInt) greatestInt64) ∧
      ∀ top, e.greatest = .ok top →
        top.toInt = max leastInt64 (min (product + e.modifier.toInt) greatestInt64) := by
  obtain ⟨s, hwritten, hdenotes⟩ := h.exists_spelling
  refine ⟨s, hwritten, hdenotes, ?_⟩
  rw [← hdenotes.count, ← hdenotes.sides]
  refine ⟨exists_greatest_iff hsides, ?_, toInt_addModifier _ _, fun top htop => ?_⟩
  · rw [greatest_eq_error_iff, and_iff_left rfl]
  · obtain ⟨-, rfl⟩ := greatest_eq_ok_iff.mp htop
    exact toInt_addModifier _ _

/-- More dice are written than their field holds. Those that are kept, of 2147483648 sides, add up
to a sum that just fits, and adding the modifier stops at the end. -/
theorem ReadFrom.range_iff_product_le_at_end :
    let text := "take 3#99999999999d2147483648+5000000000!"
    let e : Expression := ⟨4294967295, 2147483648, 5000000000⟩
    (e.ReadFrom text ∧ 0 < e.sides.toNat) ∧ e.least = 9294967295 ∧
      e.greatest = .ok 9223372036854775807 ∧ ∃ top, e.greatest = .ok top ∧ e.least ≤ top := by
  intro text e
  have hfound : find? .repeated text = some ⟨3, e⟩ := by decide +kernel
  have hread : e.ReadFrom text := .firstSet hfound
  have hsides : 0 < e.sides.toNat := by decide
  obtain ⟨s, -, hdenotes, hrange, -⟩ := hread.range_iff_product_le hsides
  refine ⟨⟨hread, hsides⟩, by decide, by decide, hrange.mpr ?_⟩
  rw [← hdenotes.count, ← hdenotes.sides]
  decide

/-- With one more side the sum does not fit any more. The text is read in each of the three ways, and
neither number in it is cut off, but the expression has no greatest total. -/
theorem greatest_overflows_when_read :
    let e : Expression := ⟨4294967295, 2147483649, 0⟩
    ofText? "4294967295d2147483649" = some e ∧
      find? .single "4294967295d2147483649" = some e ∧
      find? .repeated "1#4294967295d2147483649" = some ⟨1, e⟩ ∧
      0 < e.sides.toNat ∧ e.greatest = .error .productOverflow := by
  exact ⟨by decide +kernel, by decide +kernel, by decide +kernel, by decide, by decide⟩

end Expression

end ChatDice
