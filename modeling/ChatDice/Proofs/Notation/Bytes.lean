/-
Dice notation in the bytes of a text.

All symbols of dice notation are ASCII characters, and a character outside ASCII has no byte
that is one. Reading the bytes of a text is therefore as good as reading its characters:

* **`byteSymbols_eq`** — the bytes of a text are those of its characters, one after another;
* **`exists_append_of_charBytes_eq_append`** — symbols of dice notation at the front of the bytes
  are characters at the front of the text;
* **`exists_split_of_charBytes_eq_append`** — such a symbol never stands inside a character.
-/
import ChatDice.Notation.Symbol

namespace ChatDice

/-! ### The bytes of a character -/

namespace Symbol

/-- The symbols of the bytes of one character. -/
def ofCharBytes (c : Char) : List Symbol :=
  (String.utf8EncodeChar c).map ofByte

theorem ofCode_of_le {code : Nat} (h : 128 ≤ code) : ofCode code = other := by
  simp only [ofCode]
  rw [dif_neg (by omega), if_neg (by omega), if_neg (by omega), if_neg (by omega),
    if_neg (by omega)]

theorem ofChar_injective {a b : Char} (h : ofChar a = ofChar b) (hne : ofChar a ≠ other) :
    a = b := by
  have hcode : a.toNat = b.toNat := by grind [ofChar, ofCode]
  exact Char.toNat_inj.mp hcode

theorem ofCharBytes_of_lt {c : Char} (h : c.toNat < 128) : ofCharBytes c = [ofChar c] := by
  have hval : c.val.toNat < 128 := h
  simp only [ofCharBytes, String.utf8EncodeChar]
  rw [if_pos (by omega)]
  simp only [List.map_cons, List.map_nil, ofByte, ofChar, UInt8.toNat_ofNat']
  rw [Nat.mod_eq_of_lt (by omega)]
  rfl

theorem le_of_mem_utf8EncodeChar {c : Char} (h : 128 ≤ c.toNat) {b : UInt8}
    (hb : b ∈ String.utf8EncodeChar c) : 128 ≤ b.toNat := by
  have hval : 128 ≤ c.val.toNat := h
  have hbyte (n m base : Nat) (hm : 0 < m) (hlow : 128 ≤ base) (hhigh : m + base ≤ 256) :
      128 ≤ (UInt8.ofNat (n % m + base)).toNat := by
    have hlt : n % m < m := Nat.mod_lt n hm
    rw [UInt8.toNat_ofNat', Nat.mod_eq_of_lt (by omega)]
    omega
  rw [String.utf8EncodeChar] at hb
  rw [if_neg (by omega)] at hb
  split at hb
  · simp only [List.mem_cons, List.not_mem_nil, or_false] at hb
    rcases hb with rfl | rfl
    · exact hbyte _ 32 0xc0 (by decide) (by decide) (by decide)
    · exact hbyte _ 64 0x80 (by decide) (by decide) (by decide)
  · split at hb
    · simp only [List.mem_cons, List.not_mem_nil, or_false] at hb
      rcases hb with rfl | rfl | rfl
      · exact hbyte _ 16 0xe0 (by decide) (by decide) (by decide)
      · exact hbyte _ 64 0x80 (by decide) (by decide) (by decide)
      · exact hbyte _ 64 0x80 (by decide) (by decide) (by decide)
    · simp only [List.mem_cons, List.not_mem_nil, or_false] at hb
      rcases hb with rfl | rfl | rfl | rfl
      · exact hbyte _ 8 0xf0 (by decide) (by decide) (by decide)
      · exact hbyte _ 64 0x80 (by decide) (by decide) (by decide)
      · exact hbyte _ 64 0x80 (by decide) (by decide) (by decide)
      · exact hbyte _ 64 0x80 (by decide) (by decide) (by decide)

/-- A character that dice notation uses is one byte with the same symbol. -/
theorem ofCharBytes_of_ne {c : Char} (h : ofChar c ≠ other) : ofCharBytes c = [ofChar c] := by
  refine ofCharBytes_of_lt (Nat.lt_of_not_le fun hle => ?_)
  exact h (ofCode_of_le hle)

/-- The bytes of any other character have no use in dice notation either. -/
theorem eq_other_of_mem_ofCharBytes {c : Char} (h : ofChar c = other) {symbol : Symbol}
    (hs : symbol ∈ ofCharBytes c) : symbol = other := by
  by_cases hlt : c.toNat < 128
  · rw [ofCharBytes_of_lt hlt, List.mem_singleton] at hs
    rw [hs, h]
  · obtain ⟨b, hb, rfl⟩ := List.mem_map.mp hs
    exact ofCode_of_le (le_of_mem_utf8EncodeChar (Nat.le_of_not_lt hlt) hb)

theorem ofCharBytes_ne_nil (c : Char) : ofCharBytes c ≠ [] := by
  rw [ofCharBytes, ne_eq, List.map_eq_nil_iff]
  exact String.utf8EncodeChar_ne_nil

end Symbol

/-! ### The bytes of a text -/

/-- The symbols of the bytes of a list of characters. -/
def charBytes (cs : List Char) : List Symbol :=
  cs.flatMap Symbol.ofCharBytes

@[simp] theorem charBytes_nil : charBytes [] = [] := rfl

@[simp] theorem charBytes_cons (c : Char) (cs : List Char) :
    charBytes (c :: cs) = Symbol.ofCharBytes c ++ charBytes cs := rfl

@[simp] theorem charBytes_append (cs cs' : List Char) :
    charBytes (cs ++ cs') = charBytes cs ++ charBytes cs' :=
  List.flatMap_append

theorem byteSymbols_eq (text : String) : byteSymbols text = charBytes text.toList := by
  obtain ⟨cs, rfl⟩ := text.exists_eq_ofList
  rw [byteSymbols, String.toByteArray_ofList, String.toList_ofList, List.utf8Encode,
    List.toList_data_toByteArray, List.map_flatMap]
  rfl

theorem charBytes_eq_nil {cs : List Char} (h : charBytes cs = []) : cs = [] := by
  cases cs with
  | nil => rfl
  | cons c cs =>
    have hc := (List.append_eq_nil_iff.mp h).1
    exact absurd hc (Symbol.ofCharBytes_ne_nil c)

/-- Of two beginnings of the same characters, the one with fewer bytes has fewer characters. -/
theorem length_le_of_length_charBytes_le {before after before' after' : List Char}
    (h : before ++ after = before' ++ after')
    (hle : (charBytes before).length ≤ (charBytes before').length) :
    before.length ≤ before'.length := by
  rcases List.append_eq_append_iff.mp h with ⟨middle, rfl, _⟩ | ⟨middle, rfl, _⟩
  · rw [List.length_append]
    exact Nat.le_add_right _ _
  · rw [charBytes_append, List.length_append] at hle
    have hnil : charBytes middle = [] := List.length_eq_zero_iff.mp (by omega)
    exact Nat.le_of_eq (by rw [charBytes_eq_nil hnil, List.append_nil])

theorem charBytes_of_ne {cs : List Char} (h : ∀ c ∈ cs, Symbol.ofChar c ≠ .other) :
    charBytes cs = cs.map Symbol.ofChar := by
  induction cs with
  | nil => rfl
  | cons c cs ih =>
    rw [List.forall_mem_cons] at h
    rw [charBytes_cons, Symbol.ofCharBytes_of_ne h.1, ih h.2]
    rfl

theorem exists_cons_of_charBytes_eq_cons {cs : List Char} {symbol : Symbol} {rest : List Symbol}
    (h : charBytes cs = symbol :: rest) (hne : symbol ≠ .other) :
    ∃ c cs', cs = c :: cs' ∧ Symbol.ofChar c = symbol ∧ charBytes cs' = rest := by
  cases cs with
  | nil => exact nomatch h
  | cons c cs =>
    rw [charBytes_cons] at h
    by_cases hc : Symbol.ofChar c = .other
    · match hbytes : Symbol.ofCharBytes c, h with
      | [], _ => exact absurd hbytes (Symbol.ofCharBytes_ne_nil c)
      | _ :: _, rfl => exact absurd (Symbol.eq_other_of_mem_ofCharBytes hc (by simp [hbytes])) hne
    · rw [Symbol.ofCharBytes_of_ne hc] at h
      exact ⟨c, cs, rfl, (List.cons.inj h).1, (List.cons.inj h).2⟩

/-- If the bytes of some characters begin with symbols of dice notation, the characters begin
with those that stand for the same symbols. -/
theorem exists_append_of_charBytes_eq_append {cs word : List Char} {rest : List Symbol}
    (h : charBytes cs = word.map Symbol.ofChar ++ rest)
    (hne : ∀ c ∈ word, Symbol.ofChar c ≠ .other) :
    ∃ after, cs = word ++ after ∧ charBytes after = rest := by
  induction word generalizing cs with
  | nil => exact ⟨cs, rfl, h⟩
  | cons c word ih =>
    rw [List.forall_mem_cons] at hne
    obtain ⟨c', cs', rfl, hc, hrest⟩ := exists_cons_of_charBytes_eq_cons h hne.1
    obtain ⟨after, rfl, hafter⟩ := ih hrest hne.2
    obtain rfl := Symbol.ofChar_injective hc.symm hne.1
    exact ⟨after, rfl, hafter⟩

/-- A symbol of dice notation in the bytes of some characters does not stand inside of one: the
bytes in front of it are those of whole characters. -/
theorem exists_split_of_charBytes_eq_append {cs : List Char} {front rest : List Symbol}
    {symbol : Symbol} (h : charBytes cs = front ++ symbol :: rest) (hne : symbol ≠ .other) :
    ∃ before after, cs = before ++ after ∧ charBytes before = front ∧
      charBytes after = symbol :: rest := by
  induction cs generalizing front with
  | nil => exact absurd h.symm (by simp)
  | cons c cs ih =>
    rw [charBytes_cons] at h
    rcases List.append_eq_append_iff.mp h with ⟨front, rfl, hcs⟩ | ⟨middle, hc, hrest⟩
    · obtain ⟨before, after, rfl, rfl, hafter⟩ := ih hcs
      exact ⟨c :: before, after, rfl, rfl, hafter⟩
    · cases middle with
      | nil => exact ⟨[c], cs, rfl, by simpa using hc, hrest.symm⟩
      | cons s middle =>
        obtain ⟨rfl, rfl⟩ := List.cons.inj hrest
        -- A character with such a byte is that one byte, so nothing of it stands in front.
        have hmem : symbol ∈ Symbol.ofCharBytes c := by simp [hc]
        have hchar : Symbol.ofChar c ≠ .other := fun hother =>
          hne (Symbol.eq_other_of_mem_ofCharBytes hother hmem)
        rw [Symbol.ofCharBytes_of_ne hchar] at hc
        cases front with
        | nil => exact ⟨[], c :: cs, rfl, rfl, h⟩
        | cons s' front => exact absurd hc (by simp)

end ChatDice
