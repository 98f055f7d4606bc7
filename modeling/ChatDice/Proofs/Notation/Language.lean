/-
Dice notation as a formal language, and what its words denote.

* **`Form.language`** — the regular language of a form: runs of ASCII digits around a lowercase
  `d`, an optional modifier, and for sets a further run and `#` in front;
* **`Form.mem_language_iff`** — its words are the characters of the spellings;
* **`Spelling.Denotes`** — the fields of an expression against the numbers that a spelling
  writes, however many digits it takes: each number stops at the end of its field;
* **`Spelling.denotes_iff`** — the meaning of a spelling is the one expression it denotes;
* **`Expression.ofText?_accepts_language`** — a text is read as an expression if and only if the
  whole of it is a word of the language, and the expression is what it denotes.
-/
import Mathlib.Computability.Language
import ChatDice.Proofs.Notation.Bytes
import ChatDice.Proofs.Notation.Reading

open scoped Computability

namespace ChatDice

/-! ### Digits -/

/-- The ASCII digits, each a word of its own. -/
def digitLanguage : Language Char :=
  {word | ∃ c : Char, c.isDigit ∧ word = [c]}

/-- The runs of one or more digits. -/
def numeralLanguage : Language Char :=
  digitLanguage * digitLanguage∗

theorem digitChar_of_isDigit {c : Char} (h : c.isDigit) :
    ∃ d : Fin 10, Nat.digitChar d.val = c := by
  have hcode : 48 ≤ c.toNat ∧ c.toNat ≤ 57 := by
    simpa [Char.isDigit, UInt32.le_iff_toNat_le] using h
  have hlt : c.toNat - 48 < 10 := by omega
  refine ⟨⟨c.toNat - 48, hlt⟩, Char.toNat_inj.mp ?_⟩
  rw [Nat.toNat_digitChar_of_lt_ten hlt]
  omega

theorem isDigit_digitChar (d : Fin 10) : (Nat.digitChar d.val).isDigit := by
  revert d
  decide

theorem mem_kstar_digitLanguage {word : List Char} :
    word ∈ digitLanguage∗ ↔ ∀ c ∈ word, c.isDigit := by
  rw [Language.mem_kstar]
  constructor
  · rintro ⟨words, rfl, hwords⟩ c hc
    obtain ⟨w, hw, hcw⟩ := List.mem_flatten.mp hc
    obtain ⟨c', hc', rfl⟩ := hwords w hw
    rw [List.mem_singleton.mp hcw]
    exact hc'
  · intro h
    refine ⟨word.map fun c => [c], (List.flatMap_singleton' word).symm, fun w hw => ?_⟩
    obtain ⟨c, hc, rfl⟩ := List.mem_map.mp hw
    exact ⟨c, h c hc, rfl⟩

namespace Numeral

theorem isDigit_of_mem_chars {n : Numeral} {c : Char} (h : c ∈ n.chars) : c.isDigit := by
  obtain ⟨d, _, rfl⟩ := List.mem_map.mp h
  exact isDigit_digitChar d

theorem chars_ne_nil (n : Numeral) : n.chars ≠ [] := by
  rw [chars, ne_eq, List.map_eq_nil_iff]
  exact n.nonempty

theorem exists_chars_eq {word : List Char} (hne : word ≠ []) (h : ∀ c ∈ word, c.isDigit) :
    ∃ n : Numeral, n.chars = word := by
  suffices hdigits : ∃ digits : List (Fin 10), digits.map (fun d => Nat.digitChar d.val) = word by
    obtain ⟨digits, rfl⟩ := hdigits
    exact ⟨⟨digits, fun hnil => hne (by rw [hnil, List.map_nil])⟩, rfl⟩
  induction word with
  | nil => exact absurd rfl hne
  | cons c word ih =>
    rw [List.forall_mem_cons] at h
    obtain ⟨d, rfl⟩ := digitChar_of_isDigit h.1
    by_cases hword : word = []
    · exact ⟨[d], by rw [hword]; rfl⟩
    · obtain ⟨digits, rfl⟩ := ih hword h.2
      exact ⟨d :: digits, rfl⟩

theorem mem_numeralLanguage_iff {word : List Char} :
    word ∈ numeralLanguage ↔ ∃ n : Numeral, n.chars = word := by
  rw [numeralLanguage, Language.mem_mul]
  constructor
  · rintro ⟨_, ⟨c, hc, rfl⟩, word, hword, rfl⟩
    refine exists_chars_eq (List.cons_ne_nil c word) fun c' hc' => ?_
    rcases List.mem_cons.mp hc' with rfl | hmem
    · exact hc
    · exact mem_kstar_digitLanguage.mp hword c' hmem
  · rintro ⟨n, rfl⟩
    match hchars : n.chars with
    | [] => exact absurd hchars n.chars_ne_nil
    | c :: word =>
      have hdigit : ∀ c' ∈ c :: word, c'.isDigit := fun c' hc' =>
        isDigit_of_mem_chars (hchars ▸ hc')
      rw [List.forall_mem_cons] at hdigit
      exact ⟨[c], ⟨c, hdigit.1, rfl⟩, word, mem_kstar_digitLanguage.mpr hdigit.2, rfl⟩

end Numeral

/-! ### Forms -/

theorem mem_mul_letter_mul {l m : Language Char} {letter : Char} {word : List Char} :
    word ∈ l * {[letter]} * m ↔ ∃ a ∈ l, ∃ b ∈ m, a ++ letter :: b = word := by
  simp only [Language.mem_mul]
  constructor
  · rintro ⟨_, ⟨a, ha, _, rfl, rfl⟩, b, hb, rfl⟩
    exact ⟨a, ha, b, hb, by simp⟩
  · rintro ⟨a, ha, b, hb, rfl⟩
    exact ⟨_, ⟨a, ha, _, rfl, rfl⟩, b, hb, by simp⟩

/-- A sign and a run of digits, or nothing. -/
def modifierLanguage : Language Char :=
  1 + ({['+']} + {['-']}) * numeralLanguage

/-- Two runs of digits around a lowercase `d`, and a modifier. -/
def expressionLanguage : Language Char :=
  numeralLanguage * {['d']} * (numeralLanguage * modifierLanguage)

/-- The language of a form. -/
def Form.language : Form → Language Char
  | .single => expressionLanguage
  | .repeated => numeralLanguage * {['#']} * expressionLanguage

theorem mem_modifierLanguage_iff {word : List Char} :
    word ∈ modifierLanguage ↔
      ∃ m : Option SignedNumeral, (m.map SignedNumeral.chars).getD [] = word := by
  rw [modifierLanguage, Language.mem_add, Language.mem_one]
  simp only [Language.mem_mul, Language.mem_add, Numeral.mem_numeralLanguage_iff]
  constructor
  · rintro (rfl | ⟨_, rfl | rfl, _, ⟨n, rfl⟩, rfl⟩)
    · exact ⟨none, rfl⟩
    · exact ⟨some ⟨.plus, n⟩, rfl⟩
    · exact ⟨some ⟨.minus, n⟩, rfl⟩
  · rintro ⟨_ | ⟨sign, n⟩, rfl⟩
    · exact Or.inl rfl
    · refine Or.inr ⟨[sign.char], ?_, n.chars, ⟨n, rfl⟩, rfl⟩
      cases sign with
      | plus => exact Or.inl rfl
      | minus => exact Or.inr rfl

theorem mem_expressionLanguage_iff {word : List Char} :
    word ∈ expressionLanguage ↔ ∃ s : Spelling, s.chars = word := by
  rw [expressionLanguage, mem_mul_letter_mul]
  simp only [Language.mem_mul, Numeral.mem_numeralLanguage_iff, mem_modifierLanguage_iff]
  constructor
  · rintro ⟨_, ⟨count, rfl⟩, _, ⟨_, ⟨sides, rfl⟩, _, ⟨m, rfl⟩, rfl⟩, rfl⟩
    exact ⟨⟨count, sides, m⟩, by simp [Spelling.chars]⟩
  · rintro ⟨s, rfl⟩
    exact ⟨_, ⟨s.count, rfl⟩, _, ⟨_, ⟨s.sides, rfl⟩, _, ⟨s.modifier, rfl⟩, rfl⟩,
      by simp [Spelling.chars]⟩

/-- The words of the language of a form are the characters of its spellings. -/
theorem Form.mem_language_iff (form : Form) {word : List Char} :
    word ∈ form.language ↔ ∃ s : form.Spelled, form.chars s = word := by
  cases form with
  | single => exact mem_expressionLanguage_iff
  | repeated =>
    simp only [language, mem_mul_letter_mul, Numeral.mem_numeralLanguage_iff,
      mem_expressionLanguage_iff]
    constructor
    · rintro ⟨_, ⟨repeats, rfl⟩, _, ⟨spelling, rfl⟩, rfl⟩
      exact ⟨⟨repeats, spelling⟩, rfl⟩
    · rintro ⟨s, rfl⟩
      exact ⟨_, ⟨s.repeats, rfl⟩, _, ⟨s.spelling, rfl⟩, rfl⟩

/-! ### Words as symbols -/

theorem ofChar_digitChar (d : Fin 10) : Symbol.ofChar (Nat.digitChar d.val) = .digit d := by
  revert d
  decide

theorem Numeral.map_ofChar_chars (n : Numeral) : n.chars.map Symbol.ofChar = n.symbols := by
  rw [chars, symbols, List.map_map]
  exact List.map_congr_left fun d _ => ofChar_digitChar d

theorem Sign.ofChar_char (sign : Sign) : Symbol.ofChar sign.char = sign.symbol := by
  cases sign <;> decide

theorem SignedNumeral.map_ofChar_chars (n : SignedNumeral) :
    n.chars.map Symbol.ofChar = n.symbols := by
  rw [chars, symbols, List.map_cons, n.sign.ofChar_char, n.magnitude.map_ofChar_chars]

theorem Spelling.map_ofChar_chars (s : Spelling) : s.chars.map Symbol.ofChar = s.symbols := by
  have hd : Symbol.ofChar 'd' = .dee := by decide
  have hm : ((s.modifier.map SignedNumeral.chars).getD []).map Symbol.ofChar =
      (s.modifier.map SignedNumeral.symbols).getD [] := by
    cases s.modifier with
    | none => rfl
    | some n => exact n.map_ofChar_chars
  simp only [chars, symbols, List.map_append, List.map_cons, hd, hm, Numeral.map_ofChar_chars]

theorem SetSpelling.map_ofChar_chars (s : SetSpelling) :
    s.chars.map Symbol.ofChar = s.symbols := by
  have hhash : Symbol.ofChar '#' = .hash := by decide
  simp only [chars, symbols, List.map_append, List.map_cons, hhash, Numeral.map_ofChar_chars,
    Spelling.map_ofChar_chars]

namespace Form

theorem map_ofChar_chars (form : Form) (s : form.Spelled) :
    (form.chars s).map Symbol.ofChar = form.symbols s := by
  cases form with
  | single => exact s.map_ofChar_chars
  | repeated => exact s.map_ofChar_chars

theorem length_chars (form : Form) (s : form.Spelled) :
    (form.chars s).length = (form.symbols s).length := by
  rw [← form.map_ofChar_chars, List.length_map]

theorem chars_injective (form : Form) : Function.Injective form.chars := by
  intro s s' heq
  have hsymbols := congrArg (List.map Symbol.ofChar) heq
  rw [form.map_ofChar_chars, form.map_ofChar_chars] at hsymbols
  exact form.symbols_injective hsymbols

theorem ofChar_ne_other (form : Form) (s : form.Spelled) :
    ∀ c ∈ form.chars s, Symbol.ofChar c ≠ .other := by
  intro c hc
  have hmem : Symbol.ofChar c ∈ form.symbols s := by
    rw [← form.map_ofChar_chars]
    exact List.mem_map_of_mem hc
  exact form.ne_other_of_mem_symbols hmem

/-- The bytes of a written form are its symbols. -/
theorem charBytes_chars (form : Form) (s : form.Spelled) :
    charBytes (form.chars s) = form.symbols s := by
  rw [charBytes_of_ne (form.ofChar_ne_other s), form.map_ofChar_chars]

/-- Where the symbols of a written form stand at the front of the bytes of some characters, its
characters stand at the front. -/
theorem exists_chars_append_of_charBytes_eq (form : Form) {s : form.Spelled} {cs : List Char}
    {rest : List Symbol} (h : charBytes cs = form.symbols s ++ rest) :
    ∃ after, cs = form.chars s ++ after ∧ charBytes after = rest := by
  rw [← form.map_ofChar_chars] at h
  exact exists_append_of_charBytes_eq_append h (form.ofChar_ne_other s)

/-- Where the symbols of a written form stand in the bytes of some characters, its characters
stand at the same place. -/
theorem exists_chars_of_charBytes_eq (form : Form) {s : form.Spelled} {cs : List Char}
    {front rest : List Symbol} (h : charBytes cs = front ++ form.symbols s ++ rest) :
    ∃ before after, cs = before ++ form.chars s ++ after ∧ charBytes before = front ∧
      charBytes after = rest := by
  obtain ⟨d, tail, hs⟩ := form.symbols_eq_cons s
  rw [hs, List.append_assoc, List.cons_append] at h
  obtain ⟨before, after, rfl, rfl, hafter⟩ := exists_split_of_charBytes_eq_append h nofun
  rw [← List.cons_append, ← hs] at hafter
  obtain ⟨after, rfl, rfl⟩ := form.exists_chars_append_of_charBytes_eq hafter
  exact ⟨before, after, by rw [List.append_assoc], rfl, rfl⟩

end Form

/-! ### Denotation -/

theorem Numeral.toNat_field (n : Numeral) : n.field.toNat = min n.value greatestUInt32 := by
  have hle : min n.value greatestUInt32 ≤ 0xffffffff := Nat.min_le_right _ _
  rw [field, saturated_eq_min, UInt32.toNat_ofNat']
  exact Nat.mod_eq_of_lt (by omega)

theorem SignedNumeral.toInt_saturated (n : SignedNumeral) :
    n.saturated.toInt = max leastInt64 (min n.value greatestInt64) := by
  have hleast : leastInt64 = -9223372036854775808 := rfl
  have hgreatest : greatestInt64 = 9223372036854775807 := rfl
  obtain ⟨sign, n⟩ := n
  cases sign with
  | plus =>
    simp only [saturated, value, Numeral.saturated_eq_min]
    rw [Int64.toInt_ofInt_of_le (by omega) (by omega)]
    omega
  | minus =>
    simp only [saturated, value, Numeral.saturated_eq_min]
    rw [Int64.toInt_ofInt_of_le (by omega) (by omega)]
    omega

namespace Spelling

/-- The modifier that is written, zero if there is none. -/
def modifierValue (s : Spelling) : Int :=
  (s.modifier.map SignedNumeral.value).getD 0

/-- An expression has the numbers that a spelling writes, each cut off at the end of its
field. -/
structure Denotes (s : Spelling) (e : Expression) : Prop where
  count : e.count.toNat = min s.count.value greatestUInt32
  sides : e.sides.toNat = min s.sides.value greatestUInt32
  modifier : e.modifier.toInt = max leastInt64 (min s.modifierValue greatestInt64)

theorem toInt_modifier_expression (s : Spelling) :
    s.expression.modifier.toInt = max leastInt64 (min s.modifierValue greatestInt64) := by
  obtain ⟨count, sides, modifier⟩ := s
  cases modifier with
  | none => rfl
  | some n => exact n.toInt_saturated

theorem denotes_iff {s : Spelling} {e : Expression} : s.Denotes e ↔ s.expression = e := by
  constructor
  · rintro ⟨hcount, hsides, hmodifier⟩
    have hc : e.count = s.count.field := UInt32.toNat_inj.mp (hcount.trans s.count.toNat_field.symm)
    have hs : e.sides = s.sides.field := UInt32.toNat_inj.mp (hsides.trans s.sides.toNat_field.symm)
    have hm : e.modifier = s.expression.modifier :=
      Int64.toInt_inj.mp (hmodifier.trans s.toInt_modifier_expression.symm)
    show (⟨s.count.field, s.sides.field, s.expression.modifier⟩ : Expression) = e
    rw [← hc, ← hs, ← hm]
  · rintro rfl
    exact ⟨s.count.toNat_field, s.sides.toNat_field, s.toInt_modifier_expression⟩

end Spelling

namespace SetSpelling

structure Denotes (s : SetSpelling) (r : RollSet) : Prop where
  repeats : r.repeats.toNat = min s.repeats.value greatestUInt32
  expression : s.spelling.Denotes r.expression

theorem denotes_iff {s : SetSpelling} {r : RollSet} : s.Denotes r ↔ s.rollSet = r := by
  constructor
  · rintro ⟨hrepeats, hexpression⟩
    have hr : r.repeats = s.repeats.field :=
      UInt32.toNat_inj.mp (hrepeats.trans s.repeats.toNat_field.symm)
    show (⟨s.repeats.field, s.spelling.expression⟩ : RollSet) = r
    rw [← hr, Spelling.denotes_iff.mp hexpression]
  · rintro rfl
    exact ⟨s.repeats.toNat_field, Spelling.denotes_iff.mpr rfl⟩

end SetSpelling

namespace Form

def Denotes : (form : Form) → form.Spelled → form.Value → Prop
  | single => Spelling.Denotes
  | repeated => SetSpelling.Denotes

theorem denotes_iff (form : Form) {s : form.Spelled} {value : form.Value} :
    form.Denotes s value ↔ form.denote s = value := by
  cases form with
  | single => exact Spelling.denotes_iff
  | repeated => exact SetSpelling.denotes_iff

end Form

/-! ### Whole texts -/

theorem Spelling.ofText?_eq_some_iff {text : String} {s : Spelling} :
    Spelling.ofText? text = some s ↔ s.chars = text.toList := by
  have hof : Spelling.ofText? text = some s ↔ readExpression? (byteSymbols text) = some (s, []) := by
    rw [Spelling.ofText?]
    constructor
    · intro h
      split at h
      · next hread => rw [hread, Option.some.inj h]
      · exact nomatch h
    · intro hread
      rw [hread]
  rw [hof, readExpression?_eq_some_iff, byteSymbols_eq, List.append_nil]
  constructor
  · rintro ⟨hbytes, _⟩
    have hwhole : charBytes text.toList = Form.single.symbols s ++ [] := by
      rw [hbytes, List.append_nil]
      rfl
    -- characters without bytes are none
    obtain ⟨after, heq, hafter⟩ := Form.single.exists_chars_append_of_charBytes_eq hwhole
    rw [heq, charBytes_eq_nil hafter, List.append_nil]
    rfl
  · intro h
    rw [← h]
    exact ⟨Form.single.charBytes_chars s, Form.single.stops_nil s⟩

/-- A text is read as an expression exactly if it consists of the characters of a spelling that
denotes the expression. -/
theorem Expression.ofText?_eq_some_iff {text : String} {e : Expression} :
    Expression.ofText? text = some e ↔ ∃ s : Spelling, s.chars = text.toList ∧ s.Denotes e := by
  simp only [Expression.ofText?, Option.map_eq_some_iff, Spelling.ofText?_eq_some_iff,
    Spelling.denotes_iff]

/-- Reading a whole text accepts the words of the language of expressions and nothing else. Of a
word it returns the numbers that are written, however many digits they have, each cut off at the
end of its field. -/
theorem Expression.ofText?_accepts_language (text : String) :
    ((Expression.ofText? text).isSome ↔ text.toList ∈ expressionLanguage) ∧
      ∀ e : Expression, Expression.ofText? text = some e ↔
        ∃ s : Spelling, s.chars = text.toList ∧ s.Denotes e := by
  refine ⟨?_, fun e => Expression.ofText?_eq_some_iff⟩
  rw [mem_expressionLanguage_iff, Option.isSome_iff_exists]
  simp only [Expression.ofText?_eq_some_iff]
  constructor
  · rintro ⟨e, s, hs, _⟩
    exact ⟨s, hs⟩
  · rintro ⟨s, hs⟩
    exact ⟨s.expression, s, hs, Spelling.denotes_iff.mpr rfl⟩

end ChatDice
