/-
What is written can be read back.

* **`Expression.exists_spelling`** — the canonical text of an expression is a spelling that
  denotes it, also at the ends of the ranges of its numbers;
* **`locateEverywhere_of_hash`** — a search for an expression passes over what stands in front of
  the expression of a roll set;
* **`text_round_trip`** — an expression is read back from its text, and from the text of a roll
  set both the set and its expression are found.
-/
import ChatDice.Proofs.Notation.Leftmost
import ChatDice.Request

namespace ChatDice

/-! ### Decimal numbers -/

namespace Numeral

theorem value_eq_ofDigitChars (n : Numeral) : n.value = Nat.ofDigitChars 10 n.chars 0 := by
  have hd (d : Fin 10) : (Nat.digitChar d.val).toNat - '0'.toNat = d.val :=
    Nat.toNat_digitChar_sub_48_of_lt_ten d.isLt
  rw [Nat.ofDigitChars_eq_foldl, chars, List.foldl_map, value]
  simp only [hd]

/-- Every number is written by a numeral with its usual digits. -/
theorem exists_repr (m : Nat) : ∃ n : Numeral, n.chars = m.repr.toList ∧ n.value = m := by
  rw [Nat.toList_repr]
  have hdigits : ∀ c ∈ Nat.toDigits 10 m, c.isDigit := fun _ =>
    Nat.isDigit_of_mem_toDigits (by decide) (by decide)
  obtain ⟨n, hn⟩ := exists_chars_eq Nat.toDigits_ne_nil hdigits
  refine ⟨n, hn, ?_⟩
  rw [value_eq_ofDigitChars, hn, Nat.ofDigitChars_ten_toDigits]

theorem min_toNat (x : UInt32) : min x.toNat greatestUInt32 = x.toNat :=
  Nat.min_eq_left (Nat.le_of_lt_succ x.toNat_lt)

end Numeral

/-! ### Modifiers -/

theorem clamp_toInt (x : Int64) : max leastInt64 (min x.toInt greatestInt64) = x.toInt := by
  have hleast : leastInt64 = -9223372036854775808 := rfl
  have hgreatest : greatestInt64 = 9223372036854775807 := rfl
  have hlow := x.le_toInt
  have hhigh := x.toInt_lt
  omega

/-- What is written for a modifier is a signed number with its value, and nothing for zero. -/
theorem exists_signedModifier (x : Int64) :
    ∃ m : Option SignedNumeral, (m.map SignedNumeral.chars).getD [] = (signedModifier x).toList ∧
      (m.map SignedNumeral.value).getD 0 = x.toInt := by
  rw [signedModifier]
  -- the magnitude of the least number does not fit, so the argument is about its unbounded value
  generalize x.toInt = v
  cases v with
  | ofNat m =>
    obtain ⟨n, hchars, hvalue⟩ := Numeral.exists_repr m
    by_cases hm : m = 0
    · rw [hm]
      exact ⟨none, rfl, rfl⟩
    · have hpos : 0 < Int.ofNat m := Int.ofNat_lt.mpr (Nat.pos_of_ne_zero hm)
      refine ⟨some ⟨.plus, n⟩, ?_, ?_⟩
      · rw [if_pos hpos, String.toList_append]
        show '+' :: n.chars = '+' :: m.repr.toList
        rw [hchars]
      · show (n.value : Int) = m
        rw [hvalue]
  | negSucc m =>
    obtain ⟨n, hchars, hvalue⟩ := Numeral.exists_repr (m + 1)
    refine ⟨some ⟨.minus, n⟩, ?_, ?_⟩
    · rw [if_neg (by omega), if_pos (by omega)]
      show '-' :: n.chars = ("-" ++ (m + 1).repr).toList
      rw [hchars, String.toList_append]
      rfl
    · show -(n.value : Int) = Int.negSucc m
      rw [hvalue]
      rfl

/-! ### Expressions and roll sets -/

/-- The canonical text of an expression is a spelling that denotes it. -/
theorem Expression.exists_spelling (e : Expression) :
    ∃ s : Spelling, s.chars = e.text.toList ∧ s.Denotes e := by
  obtain ⟨count, hcount, hcountValue⟩ := Numeral.exists_repr e.count.toNat
  obtain ⟨sides, hsides, hsidesValue⟩ := Numeral.exists_repr e.sides.toNat
  obtain ⟨m, hm, hmValue⟩ := exists_signedModifier e.modifier
  refine ⟨⟨count, sides, m⟩, ?_, ?_, ?_, ?_⟩
  · simp only [Spelling.chars, Expression.text, String.toList_append, hcount, hsides, hm]
    simp
  · rw [hcountValue, Numeral.min_toNat]
  · rw [hsidesValue, Numeral.min_toNat]
  · rw [Spelling.modifierValue, hmValue, clamp_toInt]

theorem Expression.ofText?_text (e : Expression) : Expression.ofText? e.text = some e :=
  Expression.ofText?_eq_some_iff.mpr e.exists_spelling

theorem RollSet.exists_spelling (r : RollSet) :
    ∃ s : SetSpelling, s.chars = r.text.toList ∧ s.Denotes r := by
  obtain ⟨repeats, hrepeats, hvalue⟩ := Numeral.exists_repr r.repeats.toNat
  obtain ⟨s, hs, hdenotes⟩ := r.expression.exists_spelling
  refine ⟨⟨repeats, s⟩, ?_, ?_, hdenotes⟩
  · simp only [SetSpelling.chars, RollSet.text, String.toList_append, hrepeats, hs]
    simp
  · rw [hvalue, Numeral.min_toNat]

/-! ### Finding -/

theorem readExpression?_of_hash (digits : List (Fin 10)) (rest : List Symbol) :
    readExpression? (digits.map .digit ++ .hash :: rest) = none := by
  rw [readExpression?, readNumeral?, spanDigits_append digits (noDigit_cons rfl rest)]
  cases digits with
  | nil => rfl
  | cons d digits => rfl

theorem locateEverywhere_of_hash (digits : List (Fin 10)) (rest : List Symbol) (position : Nat) :
    locateEverywhere readExpression? position (digits.map .digit ++ .hash :: rest) =
      locateEverywhere readExpression? (position + digits.length + 1) rest := by
  induction digits generalizing position with
  | nil => rfl
  | cons d digits ih =>
    have hread := readExpression?_of_hash (d :: digits) rest
    rw [List.map_cons, List.cons_append] at hread ⊢
    rw [locateEverywhere, hread, List.length_cons, Nat.add_comm digits.length 1, ← Nat.add_assoc]
    exact ih (position + 1)

theorem locateEverywhere_symbols (form : Form) (s : form.Spelled) (position : Nat) :
    (locateEverywhere form.read? position (form.symbols s)).map Located.value = some s := by
  have hread : form.read? (form.symbols s) = some (s, []) :=
    form.read?_eq_some_iff.mpr ⟨(List.append_nil _).symm, form.stops_nil s⟩
  obtain ⟨d, tail, hs⟩ := form.symbols_eq_cons s
  rw [hs] at hread ⊢
  rw [locateEverywhere, hread]
  rfl

/-- In the spelling of a roll set the first expression is that of the set. -/
theorem find?_single_of_chars_eq {s : SetSpelling} {e : Expression} {text : String}
    (hchars : s.chars = text.toList) (hdenotes : s.spelling.Denotes e) :
    find? .single text = some e := by
  have hbytes : byteSymbols text = s.repeats.symbols ++ .hash :: s.spelling.symbols := by
    rw [byteSymbols_eq, ← hchars]
    exact Form.repeated.charBytes_chars s
  have hfound : (findSpelling? .single text).map Located.value = some s.spelling := by
    rw [findSpelling?_eq_locateEverywhere, hbytes]
    -- no expression starts in the number of rolls
    show (locateEverywhere readExpression? 0 _).map Located.value = _
    rw [Numeral.symbols, locateEverywhere_of_hash]
    exact locateEverywhere_symbols .single s.spelling _
  obtain ⟨found, hfind, hvalue⟩ := Option.map_eq_some_iff.mp hfound
  rw [find?, hfind, Option.map_some, hvalue, ← Spelling.denotes_iff.mp hdenotes]
  rfl

/-- Every expression is read back from its text, whatever its numbers are. In the text of a roll
set the search finds the set, and the search for an expression finds that of the set. -/
theorem text_round_trip :
    (∀ e : Expression, Expression.parse e.text = .ok e) ∧
      ∀ r : RollSet, find? .repeated r.text = some r ∧ find? .single r.text = some r.expression := by
  refine ⟨fun e => ?_, fun r => ?_⟩
  · rw [Expression.parse, e.ofText?_text]
  · obtain ⟨s, hchars, hdenotes⟩ := r.exists_spelling
    exact ⟨find?_of_chars_eq hchars hdenotes, find?_single_of_chars_eq hchars hdenotes.expression⟩

end ChatDice
