/-
The search for dice notation finds the leftmost occurrence, and the longest one there.

* **`locate_eq_locateEverywhere`** — passing over the rest of a run of digits after a failure
  loses nothing: the search finds what trying every place finds;
* **`findSpelling?_eq_some_iff`** — what is found, and where, in terms of characters;
* **`find?_leftmost_longest`** — the whole search against the language of a form.

Design notes: the words of a form stay words with a further digit in front
(`Form.exists_symbols_eq_cons`). So if a word began at some later digit of a run, one would begin
at the digit before it, and by going back at the digit where reading has failed.
-/
import ChatDice.Proofs.Notation.Language

namespace ChatDice

/-! ### Trying every place -/

/-- Search an input from the left, trying `read` in every place. -/
def locateEverywhere {α : Type} (read : Reader α) (position : Nat) :
    List Symbol → Option (Located α)
  | [] => none
  | symbol :: rest =>
    match read (symbol :: rest) with
    | some (value, left) => some ⟨position, position + (rest.length + 1 - left.length), value⟩
    | none => locateEverywhere read (position + 1) rest

theorem Form.read?_eq_none_of_cons (form : Form) {d : Fin 10} {rest : List Symbol}
    (h : form.read? (.digit d :: rest) = none) : form.read? rest = none := by
  rw [form.read?_eq_none_iff] at h ⊢
  rintro s left rfl
  obtain ⟨longer, hlonger⟩ := form.exists_symbols_eq_cons s d
  exact h longer left (by rw [hlonger, List.cons_append])

theorem Form.read?_eq_none_of_not_isDigit (form : Form) {symbol : Symbol} {rest : List Symbol}
    (h : symbol.isDigit = false) : form.read? (symbol :: rest) = none := by
  rw [form.read?_eq_none_iff]
  intro s left heq
  obtain ⟨d, tail, hs⟩ := form.symbols_eq_cons s
  rw [hs] at heq
  rw [(List.cons.inj heq).1] at h
  exact nomatch h

/-- Trying one place in each run of digits is as good as trying every place: once reading has
failed at a digit, it fails at every later digit of the same run. -/
theorem locate_eq_locateEverywhere (form : Form) (input : List Symbol) (position : Nat)
    (tried : Bool) (h : tried = true → form.read? input = none) :
    locate form.read? position tried input = locateEverywhere form.read? position input := by
  -- `h` is the invariant of the search: nothing is passed over where reading would succeed.
  induction input generalizing position tried with
  | nil => rfl
  | cons symbol rest ih =>
    cases hdigit : symbol.isDigit with
    | false =>
      rw [locate, if_neg (by simp [hdigit]), locateEverywhere,
        form.read?_eq_none_of_not_isDigit hdigit]
      exact ih (position + 1) false nofun
    | true =>
      have hskip (hnone : form.read? (symbol :: rest) = none) :
          locate form.read? (position + 1) true rest =
            locateEverywhere form.read? (position + 1) rest := by
        refine ih (position + 1) true fun _ => ?_
        cases symbol with
        | digit d => exact form.read?_eq_none_of_cons hnone
        | _ => exact nomatch hdigit
      rw [locate, if_pos hdigit, locateEverywhere]
      cases tried with
      | true =>
        rw [if_pos rfl, h rfl]
        exact hskip (h rfl)
      | false =>
        rw [if_neg Bool.false_ne_true]
        cases hread : form.read? (symbol :: rest) with
        | none => exact hskip hread
        | some read => rfl

/-! ### The first place -/

theorem locateEverywhere_eq_none_iff (form : Form) {input : List Symbol} {position : Nat} :
    locateEverywhere form.read? position input = none ↔
      ∀ front s rest, input ≠ front ++ form.symbols s ++ rest := by
  induction input generalizing position with
  | nil =>
    refine ⟨fun _ front s rest heq => ?_, fun _ => rfl⟩
    obtain ⟨d, tail, hs⟩ := form.symbols_eq_cons s
    rw [hs] at heq
    exact absurd heq.symm (by simp)
  | cons symbol input ih =>
    rw [locateEverywhere]
    cases hread : form.read? (symbol :: input) with
    | some read =>
      obtain ⟨s, rest⟩ := read
      refine ⟨nofun, fun h => ?_⟩
      exact absurd (form.read?_eq_some_iff.mp hread).1 (h [] s rest)
    | none =>
      have hfront := form.read?_eq_none_iff.mp hread
      refine ih.trans ⟨fun h front s rest heq => ?_, fun h front s rest heq => ?_⟩
      · cases front with
        | nil => exact hfront s rest heq
        | cons _ front => exact h front s rest (List.cons.inj heq).2
      · exact h (symbol :: front) s rest (by rw [heq]; rfl)

/-- What trying every place finds: nothing is written further left, and reading stopped where
nothing that follows could make it longer. -/
theorem locateEverywhere_eq_some (form : Form) {input : List Symbol} {position : Nat}
    {found : Located form.Spelled}
    (h : locateEverywhere form.read? position input = some found) :
    ∃ front rest, input = front ++ form.symbols found.value ++ rest ∧
      form.Stops found.value rest ∧
      found.start = position + front.length ∧
      found.stop = found.start + (form.symbols found.value).length ∧
      ∀ front' s rest', input = front' ++ form.symbols s ++ rest' →
        front.length ≤ front'.length := by
  induction input generalizing position with
  | nil => exact nomatch h
  | cons symbol input ih =>
    rw [locateEverywhere] at h
    cases hread : form.read? (symbol :: input) with
    | some read =>
      obtain ⟨s, rest⟩ := read
      obtain ⟨heq, hstops⟩ := form.read?_eq_some_iff.mp hread
      rw [hread] at h
      obtain rfl := Option.some.inj h
      refine ⟨[], rest, heq, hstops, rfl, ?_, fun _ _ _ _ => Nat.zero_le _⟩
      have hlength := congrArg List.length heq
      simp only [List.length_append, List.length_cons] at hlength
      show position + (input.length + 1 - rest.length) = position + (form.symbols s).length
      omega
    | none =>
      have hfront := form.read?_eq_none_iff.mp hread
      rw [hread] at h
      obtain ⟨front, rest, heq, hstops, hstart, hstop, hleft⟩ := ih h
      refine ⟨symbol :: front, rest, by rw [heq]; rfl, hstops, ?_, hstop, ?_⟩
      · rw [hstart, List.length_cons]
        omega
      · intro front' s rest' heq'
        cases front' with
        | nil => exact absurd heq' (hfront s rest')
        | cons _ front' =>
          exact Nat.succ_le_succ (hleft front' s rest' (List.cons.inj heq').2)

/-- Where reading stopped, nothing longer is written at the same place. -/
theorem Form.length_le_of_stops (form : Form) {s s' : form.Spelled} {rest rest' : List Symbol}
    (hstops : form.Stops s rest)
    (heq : form.symbols s ++ rest = form.symbols s' ++ rest') :
    (form.symbols s').length ≤ (form.symbols s).length := by
  obtain ⟨longer, left, hread, hlength⟩ := form.read?_longest s' rest'
  rw [← heq, form.read?_eq_some_iff.mpr ⟨rfl, hstops⟩] at hread
  rw [(Prod.mk.inj (Option.some.inj hread)).1]
  exact hlength

/-! ### Occurrences -/

/-- A word of the language of a form is written in a text, behind `before`. -/
structure Form.Occurs (form : Form) (text before word after : List Char) : Prop where
  split : text = before ++ word ++ after
  mem : word ∈ form.language

/-- A word starts as far to the left as any word does, and ends as far to the right as any word
that starts at the same place. -/
structure Form.OccursFirst (form : Form) (text before word after : List Char) : Prop
    extends form.Occurs text before word after where
  leftmost : ∀ before' word' after', form.Occurs text before' word' after' →
    before.length ≤ before'.length
  longest : ∀ word' after', form.Occurs text before word' after' → word'.length ≤ word.length

namespace Form

theorem occurs_chars (form : Form) {before after : List Char} (s : form.Spelled) :
    form.Occurs (before ++ form.chars s ++ after) before (form.chars s) after :=
  ⟨rfl, form.mem_language_iff.mpr ⟨s, rfl⟩⟩

theorem Occurs.exists_symbols {form : Form} {text before word after : List Char}
    (h : form.Occurs text before word after) :
    ∃ s, form.chars s = word ∧
      charBytes text = charBytes before ++ form.symbols s ++ charBytes after := by
  obtain ⟨rfl, hmem⟩ := h
  obtain ⟨s, rfl⟩ := form.mem_language_iff.mp hmem
  exact ⟨s, rfl, by rw [charBytes_append, charBytes_append, form.charBytes_chars]⟩

theorem OccursFirst.unique {form : Form} {text before word after before' word' after' : List Char}
    (h : form.OccursFirst text before word after)
    (h' : form.OccursFirst text before' word' after') :
    before = before' ∧ word = word' ∧ after = after' := by
  have hlength : before.length = before'.length :=
    Nat.le_antisymm (h.leftmost _ _ _ h'.toOccurs) (h'.leftmost _ _ _ h.toOccurs)
  have heq := h.split.symm.trans h'.split
  rw [List.append_assoc, List.append_assoc] at heq
  obtain ⟨rfl, hrest⟩ := List.append_inj heq hlength
  have hword : word.length = word'.length :=
    Nat.le_antisymm (h'.longest _ _ h.toOccurs) (h.longest _ _ h'.toOccurs)
  exact ⟨rfl, List.append_inj hrest hword⟩

end Form

/-! ### Searching a text -/

theorem findSpelling?_eq_locateEverywhere (form : Form) (text : String) :
    findSpelling? form text = locateEverywhere form.read? 0 (byteSymbols text) :=
  locate_eq_locateEverywhere form (byteSymbols text) 0 false nofun

theorem findSpelling?_eq_none_iff {form : Form} {text : String} :
    findSpelling? form text = none ↔
      ∀ before word after, ¬ form.Occurs text.toList before word after := by
  rw [findSpelling?_eq_locateEverywhere, locateEverywhere_eq_none_iff, byteSymbols_eq]
  constructor
  · intro h before word after hoccurs
    obtain ⟨s, _, heq⟩ := hoccurs.exists_symbols
    exact h _ s _ heq
  · intro h front s rest heq
    obtain ⟨before, after, hsplit, _⟩ := form.exists_chars_of_charBytes_eq heq
    exact h before _ after (hsplit ▸ form.occurs_chars s)

theorem occursFirst_of_findSpelling? {form : Form} {text : String} {found : Located form.Spelled}
    (h : findSpelling? form text = some found) :
    ∃ before after, form.OccursFirst text.toList before (form.chars found.value) after ∧
      found.start = (charBytes before).length ∧
      found.stop = found.start + (form.chars found.value).length := by
  rw [findSpelling?_eq_locateEverywhere, byteSymbols_eq] at h
  obtain ⟨front, rest, heq, hstops, hstart, hstop, hleft⟩ := locateEverywhere_eq_some form h
  obtain ⟨before, after, hsplit, rfl, rfl⟩ := form.exists_chars_of_charBytes_eq heq
  refine ⟨before, after, ⟨hsplit ▸ form.occurs_chars found.value, ?_, ?_⟩, ?_, ?_⟩
  · -- leftmost in bytes is leftmost in characters
    intro before' word' after' hoccurs
    obtain ⟨s, _, heq'⟩ := hoccurs.exists_symbols
    have hchars := hsplit.symm.trans hoccurs.split
    rw [List.append_assoc, List.append_assoc] at hchars
    exact length_le_of_length_charBytes_le hchars (hleft _ s _ heq')
  · -- a longer word would be read on the same bytes
    intro word' after' hoccurs
    obtain ⟨s, rfl, heq'⟩ := hoccurs.exists_symbols
    rw [heq, List.append_assoc, List.append_assoc] at heq'
    rw [form.length_chars, form.length_chars]
    exact form.length_le_of_stops hstops (List.append_cancel_left heq')
  · rw [hstart, Nat.zero_add]
  · rw [hstop, form.length_chars]

/-- The search returns the first occurrence of a form, with the bytes that it takes up. -/
theorem findSpelling?_eq_some_iff {form : Form} {text : String} {found : Located form.Spelled} :
    findSpelling? form text = some found ↔
      ∃ before after, form.OccursFirst text.toList before (form.chars found.value) after ∧
        found.start = (charBytes before).length ∧
        found.stop = found.start + (form.chars found.value).length := by
  refine ⟨occursFirst_of_findSpelling?, ?_⟩
  rintro ⟨before, after, hfirst, hstart, hstop⟩
  cases hfind : findSpelling? form text with
  | none =>
    exact absurd hfirst.toOccurs (findSpelling?_eq_none_iff.mp hfind before _ after)
  | some found' =>
    obtain ⟨before', after', hfirst', hstart', hstop'⟩ := occursFirst_of_findSpelling? hfind
    obtain ⟨rfl, hchars, rfl⟩ := hfirst.unique hfirst'
    obtain ⟨start, stop, s⟩ := found
    obtain ⟨start', stop', s'⟩ := found'
    obtain rfl : s = s' := form.chars_injective hchars
    obtain rfl : start = start' := hstart.trans hstart'.symm
    obtain rfl : stop = stop' := hstop.trans hstop'.symm
    rfl

theorem find?_eq_none_iff {form : Form} {text : String} :
    find? form text = none ↔ ∀ before word after, ¬ form.Occurs text.toList before word after := by
  rw [find?, Option.map_eq_none_iff, findSpelling?_eq_none_iff]

theorem find?_eq_some_iff {form : Form} {text : String} {value : form.Value} :
    find? form text = some value ↔
      ∃ before s after, form.OccursFirst text.toList before (form.chars s) after ∧
        form.Denotes s value := by
  simp only [find?, Option.map_eq_some_iff, form.denotes_iff]
  constructor
  · rintro ⟨found, hfind, rfl⟩
    obtain ⟨before, after, hfirst, _⟩ := findSpelling?_eq_some_iff.mp hfind
    exact ⟨before, found.value, after, hfirst, rfl⟩
  · rintro ⟨before, s, after, hfirst, rfl⟩
    let found : Located form.Spelled :=
      ⟨(charBytes before).length, (charBytes before).length + (form.chars s).length, s⟩
    exact ⟨found, findSpelling?_eq_some_iff.mpr ⟨before, after, hfirst, rfl, rfl⟩, rfl⟩

/-- A spelling that is the whole of a text is its first occurrence. -/
theorem Form.occursFirst_whole (form : Form) (s : form.Spelled) :
    form.OccursFirst (form.chars s) [] (form.chars s) [] where
  split := (List.append_nil _).symm
  mem := form.mem_language_iff.mpr ⟨s, rfl⟩
  leftmost _ _ _ _ := Nat.zero_le _
  longest word after h := by
    have hlength := congrArg List.length h.split
    simp only [List.length_append, List.length_nil] at hlength
    omega

theorem find?_of_chars_eq {form : Form} {s : form.Spelled} {value : form.Value} {text : String}
    (hchars : form.chars s = text.toList) (hdenotes : form.Denotes s value) :
    find? form text = some value :=
  find?_eq_some_iff.mpr ⟨[], s, [], hchars ▸ form.occursFirst_whole s, hdenotes⟩

/-- The search for a form finds nothing exactly if no part of the text is a word of the language
of the form. Otherwise it returns what the word that starts furthest to the left denotes, and
among those that start there the longest one. It finds the same as a search that tries the reader
in the place of every byte. -/
theorem find?_leftmost_longest (form : Form) (text : String) :
    (find? form text = none ↔
      ∀ before word after, text.toList = before ++ word ++ after → word ∉ form.language) ∧
    (∀ value : form.Value, find? form text = some value ↔
      ∃ before s after, form.OccursFirst text.toList before (form.chars s) after ∧
        form.Denotes s value) ∧
    find? form text = (locateEverywhere form.read? 0 (byteSymbols text)).map
      fun found => form.denote found.value := by
  refine ⟨?_, fun value => find?_eq_some_iff, ?_⟩
  · rw [find?_eq_none_iff]
    exact ⟨fun h before word after hsplit hmem => h before word after ⟨hsplit, hmem⟩,
      fun h before word after hoccurs => h before word after hoccurs.split hoccurs.mem⟩
  · rw [find?, findSpelling?_eq_locateEverywhere]

end ChatDice
