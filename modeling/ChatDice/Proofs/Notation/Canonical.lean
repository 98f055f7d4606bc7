/-
The canonical texts of expressions.

An expression has many texts: numbers may have zeros in front, a modifier may be zero, and numbers
beyond the ends of their fields stand for the ends. One of the texts is written for the expression.

* **`Numeral.Plain.chars_eq`** — a number without zeros in front is written with its usual digits;
* **`Spelling.Canonical.chars_eq`**, **`Expression.exists_canonical`** — of the spellings of an
  expression, the canonical one is written;
* **`Expression.text_eq_iff_canonical`** — a text that is read comes back when it is written again
  exactly if it is canonical, and what comes back is canonical always.
-/
import ChatDice.Proofs.Notation.RoundTrip

namespace ChatDice

/-! ### Numerals -/

namespace Numeral

/-- No zero stands in front of other digits. -/
def Plain (n : Numeral) : Prop :=
  n.digits.head? = some 0 → n.digits = [0]

/-- Digits behind a number that is not zero are behind its usual digits. -/
theorem toDigits_append_digits (digits : List (Fin 10)) {number : Nat} (h : 0 < number) :
    Nat.toDigits 10 number ++ digits.map (fun d => Nat.digitChar d.val) =
      Nat.toDigits 10 (digits.foldl (fun number d => 10 * number + d.val) number) := by
  induction digits generalizing number with
  | nil => rw [List.map_nil, List.append_nil, List.foldl_nil]
  | cons d digits ih =>
    have hnext : Nat.toDigits 10 number ++ [Nat.digitChar d.val] =
        Nat.toDigits 10 (10 * number + d.val) := by
      rw [← Nat.toDigits_append_toDigits (by decide) h d.isLt, Nat.toDigits_of_lt_base d.isLt]
    rw [List.map_cons, List.foldl_cons, ← ih (by omega), ← hnext, List.append_assoc,
      List.singleton_append]

theorem Plain.chars_eq {n : Numeral} (h : n.Plain) : n.chars = n.value.repr.toList := by
  obtain ⟨digits, hne⟩ := n
  cases digits with
  | nil => exact absurd rfl hne
  | cons d digits =>
    rw [Nat.toList_repr]
    by_cases hzero : d = 0
    · obtain ⟨-, rfl⟩ := List.cons.inj (h (congrArg some hzero))
      subst hzero
      exact (Nat.toDigits_zero 10).symm
    · have hpos : 0 < d.val := Nat.pos_of_ne_zero fun hval => hzero (Fin.ext hval)
      have hdigits := toDigits_append_digits digits hpos
      rw [Nat.toDigits_of_lt_base d.isLt] at hdigits
      simpa [chars, value] using hdigits

theorem value_extend (n : Numeral) (d : Fin 10) : (n.extend [d]).value = 10 * n.value + d.val := by
  simp [value, extend]

theorem exists_plain (m : Nat) : ∃ n : Numeral, n.Plain ∧ n.value = m := by
  induction m using Nat.strongRecOn with
  | ind m ih =>
    by_cases hm : m < 10
    · refine ⟨⟨[⟨m, hm⟩], List.cons_ne_nil _ _⟩, fun h => ?_, ?_⟩
      · exact congrArg (fun d => [d]) (Option.some.inj h)
      · simp [value]
    · obtain ⟨n, hplain, hvalue⟩ := ih (m / 10) (by omega)
      refine ⟨n.extend [⟨m % 10, by omega⟩], fun h => ?_, ?_⟩
      · -- the number in front is not zero, so it does not start with one
        have hhead : n.digits.head? = some 0 := by
          rwa [extend, List.head?_append_of_ne_nil _ n.nonempty] at h
        have hzero : n.value = 0 := by
          rw [value, hplain hhead]
          rfl
        omega
      · rw [value_extend, hvalue]
        show 10 * (m / 10) + m % 10 = m
        omega

end Numeral

/-! ### Modifiers -/

/-- A signed number without zeros in front that is not zero and fits in 64 bits. -/
structure SignedNumeral.Canonical (n : SignedNumeral) : Prop where
  plain : n.magnitude.Plain
  ne_zero : n.value ≠ 0
  least_le : leastInt64 ≤ n.value
  le_greatest : n.value ≤ greatestInt64

theorem SignedNumeral.Canonical.toInt_saturated {n : SignedNumeral} (h : n.Canonical) :
    n.saturated.toInt = n.value := by
  rw [n.toInt_saturated, min_eq_left h.le_greatest, max_eq_right h.least_le]

theorem SignedNumeral.Canonical.chars_eq {n : SignedNumeral} (h : n.Canonical) :
    n.chars = (signedModifier n.saturated).toList := by
  rw [signedModifier, h.toInt_saturated, chars, h.plain.chars_eq]
  have hne := h.ne_zero
  obtain ⟨sign, n⟩ := n
  cases sign with
  | plus =>
    have hvalue : (⟨.plus, n⟩ : SignedNumeral).value = n.value := rfl
    rw [hvalue] at hne ⊢
    rw [if_pos (by omega), String.toList_append]
    rfl
  | minus =>
    have hvalue : (⟨.minus, n⟩ : SignedNumeral).value = -n.value := rfl
    rw [hvalue] at hne ⊢
    obtain ⟨m, hm⟩ : ∃ m, n.value = m + 1 := ⟨n.value - 1, by omega⟩
    rw [if_neg (by omega), if_pos (by omega), hm]
    show '-' :: (m + 1).repr.toList = ("-" ++ (m + 1).repr).toList
    rw [String.toList_append]
    rfl

theorem exists_canonical_modifier (x : Int64) :
    ∃ m : Option SignedNumeral, (∀ n ∈ m, n.Canonical) ∧
      (m.map SignedNumeral.value).getD 0 = x.toInt := by
  have hleast : leastInt64 ≤ x.toInt := x.le_toInt
  have hgreatest : x.toInt ≤ greatestInt64 := Int.le_of_lt_add_one x.toInt_lt
  obtain ⟨n, hplain, hvalue⟩ := Numeral.exists_plain x.toInt.natAbs
  rcases Int.lt_trichotomy x.toInt 0 with hneg | hzero | hpos
  · have hx : (⟨.minus, n⟩ : SignedNumeral).value = x.toInt := by
      simp only [SignedNumeral.value, hvalue]
      omega
    refine ⟨some ⟨.minus, n⟩, ?_, hx⟩
    rintro _ ⟨⟩
    exact ⟨hplain, by omega, by omega, by omega⟩
  · exact ⟨none, fun n hn => absurd hn (Option.not_mem_none n), hzero.symm⟩
  · have hx : (⟨.plus, n⟩ : SignedNumeral).value = x.toInt := by
      simp only [SignedNumeral.value, hvalue]
      omega
    refine ⟨some ⟨.plus, n⟩, ?_, hx⟩
    rintro _ ⟨⟩
    exact ⟨hplain, by omega, by omega, by omega⟩

/-! ### Expressions -/

/-- Neither the number of dice nor that of sides has a zero in front of other digits or goes beyond
the end of its field, and a modifier is written only if it is not zero, without a zero in front and
within its field. -/
structure Spelling.Canonical (s : Spelling) : Prop where
  count_plain : s.count.Plain
  count_le : s.count.value ≤ greatestUInt32
  sides_plain : s.sides.Plain
  sides_le : s.sides.value ≤ greatestUInt32
  modifier : ∀ n ∈ s.modifier, n.Canonical

theorem Numeral.toNat_field_of_le {n : Numeral} (h : n.value ≤ greatestUInt32) :
    n.field.toNat = n.value := by
  rw [n.toNat_field, Nat.min_eq_left h]

theorem Spelling.Canonical.chars_eq {s : Spelling} (h : s.Canonical) :
    s.chars = s.expression.text.toList := by
  have hmodifier : (s.modifier.map SignedNumeral.chars).getD [] =
      (signedModifier s.expression.modifier).toList := by
    obtain ⟨count, sides, modifier⟩ := s
    cases modifier with
    | none => rfl
    | some n => exact (h.modifier n rfl).chars_eq
  rw [Expression.text, String.toList_append, ← hmodifier]
  show _ = (s.count.field.toNat.repr ++ "d" ++ s.sides.field.toNat.repr).toList ++ _
  rw [Numeral.toNat_field_of_le h.count_le, Numeral.toNat_field_of_le h.sides_le,
    String.toList_append, String.toList_append, ← h.count_plain.chars_eq, ← h.sides_plain.chars_eq]
  simp [chars]

/-- Every expression has a canonical spelling. -/
theorem Expression.exists_canonical (e : Expression) :
    ∃ s : Spelling, s.Canonical ∧ s.expression = e := by
  obtain ⟨count, hcount, hcountValue⟩ := Numeral.exists_plain e.count.toNat
  obtain ⟨sides, hsides, hsidesValue⟩ := Numeral.exists_plain e.sides.toNat
  obtain ⟨m, hm, hmValue⟩ := exists_canonical_modifier e.modifier
  have hcountLe : e.count.toNat ≤ greatestUInt32 := Nat.le_of_lt_succ e.count.toNat_lt
  have hsidesLe : e.sides.toNat ≤ greatestUInt32 := Nat.le_of_lt_succ e.sides.toNat_lt
  have hcanonical : Spelling.Canonical ⟨count, sides, m⟩ :=
    ⟨hcount, hcountValue.trans_le hcountLe, hsides, hsidesValue.trans_le hsidesLe, hm⟩
  refine ⟨⟨count, sides, m⟩, hcanonical, ?_⟩
  refine Spelling.denotes_iff.mp ⟨?_, ?_, ?_⟩
  · rw [hcountValue, Numeral.min_toNat]
  · rw [hsidesValue, Numeral.min_toNat]
  · rw [Spelling.modifierValue, hmValue, clamp_toInt]

theorem Spelling.canonical_iff_chars_eq {s : Spelling} :
    s.Canonical ↔ s.chars = s.expression.text.toList := by
  refine ⟨Canonical.chars_eq, fun h => ?_⟩
  obtain ⟨s', hcanonical, hsame⟩ := s.expression.exists_canonical
  -- the canonical spelling has the same characters, so it is this one
  have hchars : s'.chars = s.chars := by
    rw [hcanonical.chars_eq, hsame, h]
  rwa [← Form.single.chars_injective hchars]

/-- A text in the canonical form of an expression. -/
def CanonicalText (text : String) : Prop :=
  ∃ s : Spelling, s.Canonical ∧ s.chars = text.toList

/-- Let a text be read as an expression. What is written for the expression is this text exactly if
the text is canonical. In any case what is written is a canonical text of the same expression. -/
theorem Expression.text_eq_iff_canonical {text : String} {e : Expression}
    (h : Expression.ofText? text = some e) :
    (e.text = text ↔ CanonicalText text) ∧ CanonicalText e.text ∧
      Expression.ofText? e.text = some e := by
  obtain ⟨s, hchars, hdenotes⟩ := Expression.ofText?_eq_some_iff.mp h
  obtain rfl := Spelling.denotes_iff.mp hdenotes
  obtain ⟨s', hcanonical, hsame⟩ := s.expression.exists_canonical
  refine ⟨?_, ⟨s', hcanonical, ?_⟩, s.expression.ofText?_text⟩
  · constructor
    · intro htext
      exact ⟨s, Spelling.canonical_iff_chars_eq.mpr (by rw [htext, hchars]), hchars⟩
    · rintro ⟨s'', hs'', hchars''⟩
      obtain rfl := Form.single.chars_injective (hchars''.trans hchars.symm)
      rw [← String.toList_inj, ← hs''.chars_eq, hchars'']
  · rw [hcanonical.chars_eq, hsame]

/-- A text at the ends of two fields, one that goes beyond the end of a field, and one with zeros
that are of no use. -/
theorem Expression.text_eq_iff_canonical_at_ends :
    let e : Expression := ⟨0, 4294967295, -9223372036854775808⟩
    (Expression.ofText? "0d4294967295-9223372036854775808" = some e ∧
      CanonicalText "0d4294967295-9223372036854775808") ∧
    (Expression.ofText? "0d4294967295-9223372036854775809" = some e ∧
      ¬ CanonicalText "0d4294967295-9223372036854775809") ∧
    Expression.ofText? "00d06-0" = some ⟨0, 6, 0⟩ ∧ ¬ CanonicalText "00d06-0" := by
  intro e
  have hend : Expression.ofText? "0d4294967295-9223372036854775808" = some e := by
    decide +kernel
  have hbeyond : Expression.ofText? "0d4294967295-9223372036854775809" = some e := by
    decide +kernel
  have hzeros : Expression.ofText? "00d06-0" = some ⟨0, 6, 0⟩ := rfl
  refine ⟨⟨hend, ?_⟩, ⟨hbeyond, fun h => ?_⟩, hzeros, fun h => ?_⟩
  · exact (text_eq_iff_canonical hend).1.mp (by decide +kernel)
  · exact absurd ((text_eq_iff_canonical hbeyond).1.mpr h) (by decide +kernel)
  · exact absurd ((text_eq_iff_canonical hzeros).1.mpr h) (by decide +kernel)

end ChatDice
