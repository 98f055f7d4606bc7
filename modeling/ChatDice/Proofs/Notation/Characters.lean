/-
Dice notation in the characters of a text.

The search runs through the bytes of a text. It may as well run through its characters: the same
readers and the same search, over one symbol for each character, find the same. Only what is counted
differs, so a place in characters is turned into a place in bytes.

* **`Symbol.char?_eq_some_iff`** — the characters that dice notation recognises;
* **`Form.read?_charBytes`** — a reader takes the same from the bytes of some characters as from the
  characters;
* **`locate_charBytes`** — so does the search, and it passes over the same digits;
* **`isValid_of_findSpelling?`** — what is found takes up whole characters;
* **`Cursor.runFrom_scan_of_findSpelling?`** — a cursor that starts where something is found scans
  it, and stops where it ends;
* **`find?_on_characters`** — all of this for the search and for the reading of whole texts.
-/
import ChatDice.Proofs.Notation.Cursor
import ChatDice.Proofs.Notation.Leftmost

namespace ChatDice

/-! ### The characters that count -/

/-- The one character that a symbol is written with. -/
def Symbol.char? : Symbol → Option Char
  | digit d => some (Nat.digitChar d.val)
  | dee => some 'd'
  | hash => some '#'
  | plus => some '+'
  | minus => some '-'
  | other => none

theorem Symbol.char?_eq_some_iff {symbol : Symbol} {c : Char} :
    symbol.char? = some c ↔ ofChar c = symbol ∧ symbol ≠ .other := by
  have hwritten : ∀ c ∈ symbol.char?, ofChar c = symbol ∧ symbol ≠ .other := by
    rintro c hc
    cases symbol with
    | digit d =>
      cases hc
      exact ⟨ofChar_digitChar d, nofun⟩
    | other => cases hc
    | _ =>
      cases hc
      exact ⟨by decide, nofun⟩
  refine ⟨hwritten c, ?_⟩
  rintro ⟨hc, hne⟩
  obtain ⟨c', hc'⟩ : ∃ c', symbol.char? = some c' := by
    cases symbol with
    | other => exact absurd rfl hne
    | _ => exact ⟨_, rfl⟩
  have hsame : ofChar c = ofChar c' := hc.trans (hwritten c' hc').1.symm
  rw [hc', ofChar_injective hsame (hc ▸ hne)]

/-! ### Written forms among characters -/

theorem eq_append_of_map_ofChar_eq_append {cs word : List Char} {rest : List Symbol}
    (h : cs.map Symbol.ofChar = word.map Symbol.ofChar ++ rest)
    (hne : ∀ c ∈ word, Symbol.ofChar c ≠ .other) :
    ∃ after, cs = word ++ after ∧ after.map Symbol.ofChar = rest := by
  induction word generalizing cs with
  | nil => exact ⟨cs, rfl, h⟩
  | cons c word ih =>
    rw [List.forall_mem_cons] at hne
    obtain ⟨c', cs, rfl, hc, hrest⟩ := List.map_eq_cons_iff.mp h
    obtain ⟨after, rfl, hafter⟩ := ih hrest hne.2
    obtain rfl := Symbol.ofChar_injective hc.symm hne.1
    exact ⟨after, rfl, hafter⟩

namespace Form

theorem exists_chars_append_of_map_ofChar_eq (form : Form) {cs : List Char} {s : form.Spelled}
    {rest : List Symbol} (h : cs.map Symbol.ofChar = form.symbols s ++ rest) :
    ∃ after, cs = form.chars s ++ after ∧ after.map Symbol.ofChar = rest := by
  rw [← form.map_ofChar_chars] at h
  exact eq_append_of_map_ofChar_eq_append h (form.ofChar_ne_other s)

/-- A reader takes the same from the bytes of some characters as from the characters, and leaves the
bytes of those it does not take. -/
theorem read?_charBytes (form : Form) (cs : List Char) :
    form.read? (charBytes cs) = (form.read? (cs.map Symbol.ofChar)).map fun read =>
      (read.1, charBytes (cs.drop (form.symbols read.1).length)) := by
  cases hchars : form.read? (cs.map Symbol.ofChar) with
  | none =>
    rw [Option.map_none, form.read?_eq_none_iff]
    intro s rest h
    obtain ⟨after, rfl, -⟩ := form.exists_chars_append_of_charBytes_eq h
    refine form.read?_eq_none_iff.mp hchars s (after.map Symbol.ofChar) ?_
    rw [List.map_append, form.map_ofChar_chars]
  | some read =>
    obtain ⟨s, rest⟩ := read
    obtain ⟨h, hstops⟩ := form.read?_eq_some_iff.mp hchars
    obtain ⟨after, rfl, rfl⟩ := form.exists_chars_append_of_map_ofChar_eq h
    have hbytes : charBytes (form.chars s ++ after) = form.symbols s ++ charBytes after := by
      rw [charBytes_append, form.charBytes_chars]
    obtain ⟨s', rest', hread, hlonger⟩ := form.read?_longest s (charBytes after)
    rw [← hbytes] at hread
    obtain ⟨h', -⟩ := form.read?_eq_some_iff.mp hread
    obtain ⟨after', heq, rfl⟩ := form.exists_chars_append_of_charBytes_eq h'
    -- each of the two is the longest at the front, one of the bytes, the other of the characters
    have hsymbols : form.symbols s ++ after.map Symbol.ofChar =
        form.symbols s' ++ after'.map Symbol.ofChar := by
      rw [← form.map_ofChar_chars, ← form.map_ofChar_chars, ← List.map_append, ← List.map_append, heq]
    have hshorter := form.length_le_of_stops hstops hsymbols
    have hlength : (form.chars s).length = (form.chars s').length := by
      rw [form.length_chars, form.length_chars]
      omega
    obtain ⟨hword, rfl⟩ := List.append_inj heq hlength
    obtain rfl := form.chars_injective hword
    rw [hread, Option.map_some, ← form.length_chars, List.drop_left]

end Form

/-! ### The search -/

/-- Where something can be read, the search finds it, unless it is in a run of digits that has been
tried. -/
theorem locate_of_read (form : Form) {input rest : List Symbol} {s : form.Spelled}
    (h : form.read? input = some (s, rest)) (position : Nat) :
    locate form.read? position false input =
      some ⟨position, position + (form.symbols s).length, s⟩ := by
  obtain ⟨rfl, -⟩ := form.read?_eq_some_iff.mp h
  obtain ⟨d, tail, hs⟩ := form.symbols_eq_cons s
  have hdigit : (Symbol.digit d).isDigit := rfl
  rw [hs, List.cons_append] at h ⊢
  rw [locate, if_pos hdigit, if_neg Bool.false_ne_true, h]
  simp only [List.length_append, List.length_cons]
  congr 3
  omega

/-- Otherwise the search passes over one symbol, and keeps in mind whether that was a digit. -/
theorem locate_cons_of_none {α : Type} {read : Reader α} {symbol : Symbol} {rest : List Symbol}
    {tried : Bool} (h : tried = true ∨ read (symbol :: rest) = none) (position : Nat) :
    locate read position tried (symbol :: rest) =
      locate read (position + 1) symbol.isDigit rest := by
  rw [locate]
  cases symbol.isDigit with
  | false => rfl
  | true =>
    rcases h with rfl | hread
    · rfl
    · rw [hread]
      cases tried <;> rfl

/-- The bytes of a character without a use are passed over. -/
theorem locate_append_of_other {α : Type} (read : Reader α) {bytes : List Symbol}
    (hne : bytes ≠ []) (h : ∀ symbol ∈ bytes, symbol = .other) (position : Nat) (tried : Bool)
    (rest : List Symbol) :
    locate read position tried (bytes ++ rest) =
      locate read (position + bytes.length) false rest := by
  induction bytes generalizing position tried with
  | nil => exact absurd rfl hne
  | cons symbol bytes ih =>
    rw [List.forall_mem_cons] at h
    obtain ⟨rfl, hbytes⟩ := h
    rw [List.cons_append, locate, if_neg (by decide), List.length_cons, Nat.add_comm bytes.length 1,
      ← Nat.add_assoc]
    by_cases hnil : bytes = []
    · rw [hnil]
      rfl
    · exact ih hnil hbytes (position + 1) false

/-- A place in some characters, counted in their bytes. -/
def Located.inBytes {α : Type} (cs : List Char) (found : Located α) : Located α where
  start := (charBytes (cs.take found.start)).length
  stop := (charBytes (cs.take found.stop)).length
  value := found.value

theorem Located.inBytes_of_chars (form : Form) (done after : List Char) (s : form.Spelled) :
    Located.inBytes (done ++ (form.chars s ++ after))
        ⟨done.length, done.length + (form.symbols s).length, s⟩ =
      ⟨(charBytes done).length, (charBytes done).length + (form.symbols s).length, s⟩ := by
  have hstop : (done ++ (form.chars s ++ after)).take (done.length + (form.symbols s).length) =
      done ++ form.chars s := by
    rw [← form.length_chars, List.take_length_add_append, List.take_left]
  rw [inBytes, List.take_left, hstop, charBytes_append, List.length_append, form.charBytes_chars]

/-- The search comes to the same in bytes as in characters, and passes over the same digits. The
characters passed over so far are `done`. -/
theorem locate_charBytes (form : Form) (done cs : List Char) (tried : Bool) :
    locate form.read? (charBytes done).length tried (charBytes cs) =
      (locate form.read? done.length tried (cs.map Symbol.ofChar)).map
        (Located.inBytes (done ++ cs)) := by
  induction cs generalizing done tried with
  | nil => rfl
  | cons c cs ih =>
    have hnext (tried : Bool) :
        locate form.read? ((charBytes done).length + (Symbol.ofCharBytes c).length) tried
            (charBytes cs) =
          (locate form.read? (done.length + 1) tried (cs.map Symbol.ofChar)).map
            (Located.inBytes (done ++ c :: cs)) := by
      simpa using ih (done ++ [c]) tried
    by_cases hc : Symbol.ofChar c = .other
    · have hbytes (symbol : Symbol) (h : symbol ∈ Symbol.ofCharBytes c) : symbol = .other :=
        Symbol.eq_other_of_mem_ofCharBytes hc h
      rw [charBytes_cons, locate_append_of_other _ (Symbol.ofCharBytes_ne_nil c) hbytes,
        List.map_cons, hc, locate, if_neg (by decide)]
      exact hnext false
    · -- the character is one byte, so both searches look at the same symbol
      have hbytes : charBytes (c :: cs) = Symbol.ofChar c :: charBytes cs := by
        rw [charBytes_cons, Symbol.ofCharBytes_of_ne hc, List.singleton_append]
      have hread := form.read?_charBytes (c :: cs)
      rw [Symbol.ofCharBytes_of_ne hc, List.length_singleton] at hnext
      by_cases hpass : tried = true ∨ form.read? ((c :: cs).map Symbol.ofChar) = none
      · have hpassBytes : tried = true ∨ form.read? (charBytes (c :: cs)) = none :=
          hpass.imp_right fun hnone => by rw [hread, hnone, Option.map_none]
        rw [hbytes] at hpassBytes ⊢
        rw [locate_cons_of_none hpassBytes, List.map_cons, locate_cons_of_none hpass]
        exact hnext (Symbol.ofChar c).isDigit
      · rw [not_or, Bool.not_eq_true] at hpass
        obtain ⟨rfl, hsome⟩ := hpass
        obtain ⟨⟨s, rest⟩, hchars⟩ := Option.ne_none_iff_exists'.mp hsome
        obtain ⟨h, -⟩ := form.read?_eq_some_iff.mp hchars
        obtain ⟨after, heq, -⟩ := form.exists_chars_append_of_map_ofChar_eq h
        rw [hchars, Option.map_some] at hread
        rw [locate_of_read form hread, locate_of_read form hchars, heq, Option.map_some,
          Located.inBytes_of_chars]

/-! ### Texts -/

/-- The first place in a text where a form is written, in characters. -/
def findSpellingInChars? (form : Form) (text : String) : Option (Located form.Spelled) :=
  locate form.read? 0 false (charSymbols text)

/-- The value of the first occurrence of a form among the characters of a text. -/
def findInChars? (form : Form) (text : String) : Option form.Value :=
  (findSpellingInChars? form text).map fun found => form.denote found.value

/-- The expression that the characters of a text spell. -/
def Expression.ofChars? (text : String) : Option Expression :=
  match readExpression? (charSymbols text) with
  | some (spelling, []) => some spelling.expression
  | _ => none

theorem findSpelling?_eq_map_inBytes (form : Form) (text : String) :
    findSpelling? form text =
      (findSpellingInChars? form text).map (Located.inBytes text.toList) := by
  rw [findSpelling?, byteSymbols_eq]
  exact locate_charBytes form [] text.toList false

theorem find?_eq_findInChars? (form : Form) (text : String) :
    find? form text = findInChars? form text := by
  rw [find?, findSpelling?_eq_map_inBytes, Option.map_map]
  rfl

theorem Expression.ofText?_eq_ofChars? (text : String) : ofText? text = ofChars? text := by
  have hread := Form.single.read?_charBytes text.toList
  change readExpression? _ = (readExpression? (charSymbols text)).map _ at hread
  rw [ofText?, Spelling.ofText?, ofChars?, byteSymbols_eq, hread]
  cases hchars : readExpression? (charSymbols text) with
  | none => rfl
  | some read =>
    obtain ⟨s, rest⟩ := read
    obtain ⟨h, -⟩ := readExpression?_eq_some_iff.mp hchars
    obtain ⟨after, heq, rfl⟩ := Form.single.exists_chars_append_of_map_ofChar_eq h
    rw [Option.map_some, heq, ← Form.single.length_chars, List.drop_left]
    -- no bytes are left exactly if no characters are
    cases after with
    | nil => rfl
    | cons c after =>
      obtain ⟨symbol, bytes, hbytes⟩ := List.exists_cons_of_ne_nil (Symbol.ofCharBytes_ne_nil c)
      rw [charBytes_cons, hbytes]
      rfl

theorem length_charBytes (cs : List Char) :
    (charBytes cs).length = (String.ofList cs).utf8ByteSize := by
  have h := congrArg List.length (byteSymbols_eq (String.ofList cs))
  rw [String.toList_ofList, byteSymbols, List.length_map] at h
  exact h.symm

/-- What is found starts and stops between whole characters. -/
theorem isValid_of_findSpelling? {form : Form} {text : String} {found : Located form.Spelled}
    (h : findSpelling? form text = some found) :
    (⟨found.start⟩ : String.Pos.Raw).IsValid text ∧
      (⟨found.stop⟩ : String.Pos.Raw).IsValid text := by
  rw [findSpelling?_eq_map_inBytes, Option.map_eq_some_iff] at h
  obtain ⟨found', -, rfl⟩ := h
  simp only [String.Pos.Raw.isValid_iff_exists_take_toList]
  exact ⟨⟨found'.start, length_charBytes _⟩, ⟨found'.stop, length_charBytes _⟩⟩

/-- A cursor that starts where something is found scans it, and stops where it ends. -/
theorem Cursor.runFrom_scan_of_findSpelling? {form : Form} {text : String}
    {found : Located form.Spelled} (h : findSpelling? form text = some found) :
    (scan (ofText text) form).runFrom found.start =
      .ok (some (form.denote found.value, found.stop)) := by
  rw [findSpelling?_eq_locateEverywhere] at h
  obtain ⟨front, rest, heq, hstops, hstart, hstop, -⟩ := locateEverywhere_eq_some form h
  have hlength := congrArg List.length heq
  simp only [byteSymbols, List.length_map, List.length_append] at hlength
  change (ofText text).length = _ at hlength
  have hsuffix : suffix (ofText text) found.start = form.symbols found.value ++ rest := by
    rw [suffix, List.map_drop]
    change (byteSymbols text).drop found.start = _
    rw [heq, hstart, Nat.zero_add, List.append_assoc, List.drop_left]
  obtain ⟨result, hscan, hagrees⟩ := scan_follows (ofText text) form found.start (by omega)
  rw [hscan]
  rw [form.read?_eq_some_iff.mpr ⟨hsuffix, hstops⟩] at hagrees
  cases hagrees with
  | @found value _ position hvalue hwithin =>
    -- the cursor has as much in front of it as the reader leaves
    simp only [suffix, List.length_map, List.length_drop] at hlength
    have hposition : position = found.stop := by omega
    rw [hvalue, hposition]

/-- The search for a form, and the reading of a whole text, come to the same in the bytes of a text
as in its characters, of which only the ten digits, the letter `d`, `#` and the two signs count; a
cursor that runs over the bytes comes to the same as well. What is found stands in the bytes where it
stands in the characters. It starts and stops between whole characters, and a cursor scans it from one
to the other. -/
theorem find?_on_characters (text : String) :
    (∀ symbol c, Symbol.char? symbol = some c ↔ Symbol.ofChar c = symbol ∧ symbol ≠ .other) ∧
    (∀ form, find? form text = findInChars? form text ∧
      Cursor.find form text = .ok (findInChars? form text)) ∧
    (Expression.ofText? text = Expression.ofChars? text ∧
      Cursor.wholeText text = .ok (Expression.ofChars? text)) ∧
    (∀ form, findSpelling? form text =
      (findSpellingInChars? form text).map (Located.inBytes text.toList)) ∧
    ∀ form found, findSpelling? form text = some found →
      (⟨found.start⟩ : String.Pos.Raw).IsValid text ∧
      (⟨found.stop⟩ : String.Pos.Raw).IsValid text ∧
      (Cursor.scan (Cursor.ofText text) form).runFrom found.start =
        .ok (some (form.denote found.value, found.stop)) := by
  refine ⟨fun _ _ => Symbol.char?_eq_some_iff, fun form => ?_, ?_,
    fun form => findSpelling?_eq_map_inBytes form text, fun form found h => ?_⟩
  · rw [Cursor.find_eq, find?_eq_findInChars?]
    exact ⟨rfl, rfl⟩
  · rw [Cursor.wholeText_eq, Expression.ofText?_eq_ofChars?]
    exact ⟨rfl, rfl⟩
  · obtain ⟨hstart, hstop⟩ := isValid_of_findSpelling? h
    exact ⟨hstart, hstop, Cursor.runFrom_scan_of_findSpelling? h⟩

/-- A digit of another script, letters of two bytes, and a sign that no digit follows. -/
theorem find?_on_characters_two_bytes :
    let text := "٣d6 würfel 1#2d6+½"
    let found : Located SetSpelling :=
      ⟨13, 18, ⟨⟨[1], by decide⟩, ⟨⟨[2], by decide⟩, ⟨[6], by decide⟩, none⟩⟩⟩
    findSpelling? .repeated text = some found ∧
      (⟨13⟩ : String.Pos.Raw).IsValid text ∧ (⟨18⟩ : String.Pos.Raw).IsValid text ∧
      (Cursor.scan (Cursor.ofText text) .repeated).runFrom 13 = .ok (some (⟨1, 2, 6, 0⟩, 18)) := by
  intro text found
  have hfound : findSpelling? .repeated text = some found := rfl
  exact ⟨hfound, (find?_on_characters text).2.2.2.2 .repeated found hfound⟩

end ChatDice
