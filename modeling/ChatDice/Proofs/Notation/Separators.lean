/-
The characters that keep pieces of text apart.

Dice notation has digits, a `d`, a `#` and two signs. Any other character ends a written form as the
end of the text does, however many bytes it takes, so a search may look at what stands in front of
it and then at what stands behind. At a character of the notation some search goes wrong that way.

* **`isSeparator_iff_ofChar`** — the separators are the characters that dice notation has no use for;
* **`find?_append_separator`** — what is found in a text around a separator;
* **`find?_intercalate`** — in words with a separator between them, the first word in which anything
  is found decides;
* **`isSeparator_iff_find?_append`** — the separators are the only characters of this kind.
-/
import ChatDice.Proofs.Notation.Surrounded

namespace ChatDice

/-! ### Separators -/

/-- A character that does not occur in dice notation. -/
structure IsSeparator (c : Char) : Prop where
  noDigit : ¬ c.isDigit
  noDee : c ≠ 'd'
  noHash : c ≠ '#'
  noPlus : c ≠ '+'
  noMinus : c ≠ '-'

theorem isSeparator_iff_ofChar {c : Char} : IsSeparator c ↔ Symbol.ofChar c = .other := by
  constructor
  · intro h
    have hcode {c' : Char} (hne : c ≠ c') : c.toNat ≠ c'.toNat := fun heq =>
      hne (Char.toNat_inj.mp heq)
    have hdigit : ¬ (48 ≤ c.toNat ∧ c.toNat < 58) := by
      have hrange := h.noDigit
      simp only [Char.isDigit, ge_iff_le, UInt32.le_iff_toNat_le, Bool.and_eq_true,
        decide_eq_true_eq] at hrange
      exact fun hcode => hrange ⟨hcode.1, Nat.le_of_lt_succ hcode.2⟩
    have hdee : c.toNat ≠ 100 := hcode h.noDee
    have hhash : c.toNat ≠ 35 := hcode h.noHash
    have hplus : c.toNat ≠ 43 := hcode h.noPlus
    have hminus : c.toNat ≠ 45 := hcode h.noMinus
    rw [Symbol.ofChar, Symbol.ofCode, dif_neg hdigit, if_neg hdee, if_neg hhash, if_neg hplus,
      if_neg hminus]
  · intro h
    have hne {c' : Char} (hused : Symbol.ofChar c' ≠ .other) : c ≠ c' := by
      rintro rfl
      exact hused h
    refine ⟨fun hdigit => ?_, hne (by decide), hne (by decide), hne (by decide), hne (by decide)⟩
    obtain ⟨d, rfl⟩ := digitChar_of_isDigit hdigit
    rw [ofChar_digitChar] at h
    cases h

/-! ### Searching around separators -/

theorem find?_append_separator (form : Form) {c : Char} (hc : IsSeparator c)
    (front back : String) :
    find? form (front ++ String.singleton c ++ back) =
      (find? form front).or (find? form back) := by
  have hchars : front ++ String.singleton c ++ back =
      String.ofList (front.toList ++ c :: back.toList) := by
    rw [← String.toList_inj]
    simp
  rw [hchars, find?_append_cons form (isSeparator_iff_ofChar.mp hc), String.ofList_toList,
    String.ofList_toList]

/-- Among words with a separator between them, the first one in which a form occurs decides what
is found. -/
theorem find?_intercalate (form : Form) {c : Char} (hc : IsSeparator c) (words : List String) :
    find? form ((String.singleton c).intercalate words) = words.findSome? (find? form) := by
  induction words with
  | nil =>
    rw [String.intercalate_nil, find?_empty]
    rfl
  | cons word words ih =>
    cases words with
    | nil => simp
    | cons next words =>
      rw [String.intercalate_cons_cons, find?_append_separator form hc, ih]
      cases hword : find? form word with
      | none => simp only [List.findSome?_cons, hword, Option.none_or]
      | some value => simp only [List.findSome?_cons, hword, Option.some_or]

/-! ### Characters of the notation -/

/-- A character separates every two texts exactly if it is no ASCII digit, no `d`, no `#` and no
sign. Then a search finds what it finds in front of the character, and if that is nothing, what it
finds behind. -/
theorem isSeparator_iff_find?_append (c : Char) :
    IsSeparator c ↔ ∀ (form : Form) (front back : String),
      find? form (front ++ String.singleton c ++ back) =
        (find? form front).or (find? form back) := by
  refine ⟨fun hc form front back => find?_append_separator form hc front back, fun h => ?_⟩
  -- each character of the notation completes a form, or makes it longer
  refine ⟨fun hdigit => ?_, ?_, ?_, ?_, ?_⟩
  · obtain ⟨d, rfl⟩ := digitChar_of_isDigit hdigit
    have hjoins : ∀ d : Fin 10, find? .single ("1d" ++ String.singleton (Nat.digitChar d.val) ++ "") ≠
        (find? .single "1d").or (find? .single "") := by decide
    exact hjoins d (h .single "1d" "")
  · rintro rfl
    exact absurd (h .single "1" "6") (by decide)
  · rintro rfl
    exact absurd (h .repeated "3" "1d6") (by decide)
  · rintro rfl
    exact absurd (h .single "1d6" "2") (by decide)
  · rintro rfl
    exact absurd (h .single "1d6" "2") (by decide)

end ChatDice
