/-
Dice notation among characters that it has no use for.

Such a character stops every reader and starts none, so no written form reaches across it:

* **`Form.Occurs.of_append_cons`**, **`find?_append_cons`** — it separates a text: what is found is
  found in front of it, or else behind it;
* **`find?_of_between`** — at both ends of a text, such characters change nothing;
* **`find?_trim`** — white space is such a surrounding;
* **`trimmed_trim`** — a trimmed text is what is left of a text between the blanks at its ends;
* **`trim_of_between`** — blanks around a text change nothing of what is left of it when trimmed;
* **`not_occurs_repeated_of_hash_not_mem`** — no roll set occurs in a text without a `#`;
* **`find?_single_of_ofText?_trim`**, **`find?_repeated_of_ofText?_trim`** — what is found in a text
  that spells an expression apart from the blanks around it.
-/
import ChatDice.Proofs.Notation.Leftmost
import ChatDice.Text.Blank

namespace ChatDice

/-! ### Characters without a use -/

theorem Form.ofChar_ne_other_of_mem_language (form : Form) {word : List Char}
    (h : word ∈ form.language) : ∀ c ∈ word, Symbol.ofChar c ≠ .other := by
  obtain ⟨s, rfl⟩ := form.mem_language_iff.mp h
  exact form.ofChar_ne_other s

theorem hash_mem_of_mem_language {word : List Char} (h : word ∈ Form.repeated.language) :
    '#' ∈ word := by
  obtain ⟨s, rfl⟩ := Form.repeated.mem_language_iff.mp h
  simp [Form.chars, SetSpelling.chars]

theorem Spelling.hash_not_mem_chars (s : Spelling) : '#' ∉ s.chars := by
  intro h
  have hdigits {n : Numeral} (h : '#' ∈ n.chars) : False :=
    absurd (Numeral.isDigit_of_mem_chars h) (by decide)
  simp only [chars, List.mem_append, List.mem_cons] at h
  rcases h with (hcount | hdee | hsides) | hmodifier
  · exact hdigits hcount
  · exact absurd hdee (by decide)
  · exact hdigits hsides
  · cases hm : s.modifier with
    | none => simp [hm] at hmodifier
    | some n =>
      rw [hm] at hmodifier
      rcases List.mem_cons.mp hmodifier with hsign | hmagnitude
      · cases hn : n.sign <;> simp [hn, Sign.char] at hsign
      · exact hdigits hmagnitude

/-- Every roll set has a `#` of its own. -/
theorem not_occurs_repeated_of_hash_not_mem {text : List Char} (hhash : '#' ∉ text)
    (before word after : List Char) : ¬ Form.repeated.Occurs text before word after := by
  intro h
  refine hhash ?_
  rw [h.split]
  simp [hash_mem_of_mem_language h.mem]

/-! ### Separators -/

/-- A character without a use separates a text: a word lies in front of it or behind. -/
theorem Form.Occurs.of_append_cons {form : Form} {front back before word after : List Char}
    {c : Char} (h : form.Occurs (front ++ c :: back) before word after)
    (hc : Symbol.ofChar c = .other) :
    (∃ rest, after = rest ++ c :: back ∧ form.Occurs front before word rest) ∨
      ∃ rest, before = front ++ c :: rest ∧ form.Occurs back rest word after := by
  have hword : c ∉ word := fun hmem => form.ofChar_ne_other_of_mem_language h.mem c hmem hc
  rcases List.append_eq_append_iff.mp h.split with ⟨middle, hbefore, hback⟩ | ⟨rest, rfl, rfl⟩
  · cases middle with
    | nil =>
      obtain rfl : before ++ word = front := by simpa using hbefore
      exact .inl ⟨[], hback.symm, (List.append_nil _).symm, h.mem⟩
    | cons c' middle =>
      obtain ⟨rfl, rfl⟩ := List.cons.inj hback
      -- the separator is a character in front of the word, since it is none of the word
      rcases List.append_eq_append_iff.mp hbefore with ⟨_, _, rfl⟩ | ⟨rest, rfl, hrest⟩
      · exact absurd (List.mem_append_right _ List.mem_cons_self) hword
      · cases rest with
        | nil =>
          obtain rfl : c :: middle = word := hrest
          exact absurd List.mem_cons_self hword
        | cons c' rest =>
          obtain ⟨rfl, rfl⟩ := List.cons.inj hrest
          exact .inr ⟨rest, rfl, rfl, h.mem⟩
  · exact .inl ⟨rest, rfl, rfl, h.mem⟩

theorem Form.Occurs.append_right {form : Form} {text before word after : List Char}
    (h : form.Occurs text before word after) (back : List Char) :
    form.Occurs (text ++ back) before word (after ++ back) :=
  ⟨by rw [h.split, List.append_assoc], h.mem⟩

theorem Form.Occurs.append_left {form : Form} {text before word after : List Char}
    (h : form.Occurs text before word after) (front : List Char) :
    form.Occurs (front ++ text) (front ++ before) word after :=
  ⟨by rw [h.split, List.append_assoc, List.append_assoc, List.append_assoc], h.mem⟩

/-- The first occurrence in front of a separator is the first of all. -/
theorem Form.OccursFirst.append_cons {form : Form} {text before word after : List Char}
    (h : form.OccursFirst text before word after) {c : Char} (hc : Symbol.ofChar c = .other)
    (back : List Char) :
    form.OccursFirst (text ++ c :: back) before word (after ++ c :: back) where
  toOccurs := h.append_right (c :: back)
  leftmost before' word' after' h' := by
    rcases h'.of_append_cons hc with ⟨rest, -, hfront⟩ | ⟨rest, rfl, -⟩
    · exact h.leftmost _ _ _ hfront
    · have hlength := congrArg List.length h.split
      simp only [List.length_append, List.length_cons] at hlength ⊢
      omega
  longest word' after' h' := by
    rcases h'.of_append_cons hc with ⟨rest, -, hfront⟩ | ⟨rest, heq, -⟩
    · exact h.longest _ _ hfront
    · -- the first word starts in front of the separator
      have hlength := congrArg List.length (h.split ▸ heq)
      simp only [List.length_append, List.length_cons] at hlength
      omega

/-- If nothing occurs in front of a separator, the first occurrence behind it is the first of
all. -/
theorem Form.OccursFirst.cons_append {form : Form} {text before word after : List Char}
    (h : form.OccursFirst text before word after) {c : Char} (hc : Symbol.ofChar c = .other)
    {front : List Char} (hfront : ∀ before word after, ¬ form.Occurs front before word after) :
    form.OccursFirst (front ++ c :: text) (front ++ c :: before) word after where
  toOccurs := by simpa using h.append_left (front ++ [c])
  leftmost before' word' after' h' := by
    rcases h'.of_append_cons hc with ⟨rest, -, hin⟩ | ⟨rest, rfl, hback⟩
    · exact absurd hin (hfront _ _ _)
    · have hle := h.leftmost _ _ _ hback
      simp only [List.length_append, List.length_cons]
      omega
  longest word' after' h' := by
    rcases h'.of_append_cons hc with ⟨rest, -, hin⟩ | ⟨rest, heq, hback⟩
    · exact absurd hin (hfront _ _ _)
    · obtain rfl := (List.cons.inj (List.append_cancel_left heq)).2
      exact h.longest _ _ hback

/-- What is found in a text with a separator is found in front of it, or else behind it. -/
theorem find?_append_cons (form : Form) {c : Char} (hc : Symbol.ofChar c = .other)
    (front back : List Char) :
    find? form (String.ofList (front ++ c :: back)) =
      (find? form (String.ofList front)).or (find? form (String.ofList back)) := by
  cases hfront : find? form (String.ofList front) with
  | some value =>
    obtain ⟨before, s, after, hfirst, hdenotes⟩ := find?_eq_some_iff.mp hfront
    rw [String.toList_ofList] at hfirst
    rw [Option.some_or, find?_eq_some_iff, String.toList_ofList]
    exact ⟨before, s, _, hfirst.append_cons hc back, hdenotes⟩
  | none =>
    rw [find?_eq_none_iff, String.toList_ofList] at hfront
    rw [Option.none_or]
    cases hback : find? form (String.ofList back) with
    | some value =>
      obtain ⟨before, s, after, hfirst, hdenotes⟩ := find?_eq_some_iff.mp hback
      rw [String.toList_ofList] at hfirst
      rw [find?_eq_some_iff, String.toList_ofList]
      exact ⟨_, s, after, hfirst.cons_append hc hfront, hdenotes⟩
    | none =>
      rw [find?_eq_none_iff, String.toList_ofList] at hback
      rw [find?_eq_none_iff, String.toList_ofList]
      intro before word after h
      rcases h.of_append_cons hc with ⟨rest, -, hin⟩ | ⟨rest, -, hin⟩
      · exact hfront _ _ _ hin
      · exact hback _ _ _ hin

theorem find?_empty (form : Form) : find? form "" = none := by
  cases form <;> rfl

theorem find?_append_of_other (form : Form) {back : List Char}
    (hback : ∀ c ∈ back, Symbol.ofChar c = .other) (text : List Char) :
    find? form (String.ofList (text ++ back)) = find? form (String.ofList text) := by
  induction back generalizing text with
  | nil => rw [List.append_nil]
  | cons c back ih =>
    rw [List.forall_mem_cons] at hback
    have hnothing : find? form (String.ofList back) = none := by
      simpa [find?_empty] using ih hback.2 []
    rw [find?_append_cons form hback.1, hnothing, Option.or_none]

theorem find?_other_append (form : Form) {front : List Char}
    (hfront : ∀ c ∈ front, Symbol.ofChar c = .other) (text : List Char) :
    find? form (String.ofList (front ++ text)) = find? form (String.ofList text) := by
  induction front with
  | nil => rfl
  | cons c front ih =>
    rw [List.forall_mem_cons] at hfront
    have hsplit := find?_append_cons form hfront.1 [] (front ++ text)
    rw [List.nil_append, String.ofList_nil, find?_empty, Option.none_or] at hsplit
    rw [List.cons_append, hsplit, ih hfront.2]

/-- Characters without a use at both ends of a text do not change what is found in it. -/
theorem find?_of_between (form : Form) {text inner : String} {front back : List Char}
    (h : text.toList = front ++ inner.toList ++ back)
    (hfront : ∀ c ∈ front, Symbol.ofChar c = .other)
    (hback : ∀ c ∈ back, Symbol.ofChar c = .other) : find? form text = find? form inner := by
  calc find? form text = find? form (String.ofList (front ++ inner.toList ++ back)) := by
        rw [← h, String.ofList_toList]
    _ = find? form (String.ofList (front ++ inner.toList)) := find?_append_of_other form hback _
    _ = find? form (String.ofList inner.toList) := find?_other_append form hfront _
    _ = find? form inner := by rw [String.ofList_toList]

/-! ### White space -/

theorem ofChar_of_isBlank {c : Char} (h : isBlank c) : Symbol.ofChar c = .other := by
  have hcodes : ∀ code ∈ blankCodes, Symbol.ofCode code = .other := by decide
  exact hcodes c.toNat (by simpa [isBlank] using h)

theorem trimRight_append_blanks (cs : List Char) :
    trimRight cs ++ (cs.reverse.takeWhile isBlank).reverse = cs := by
  rw [trimRight, ← List.reverse_append, List.takeWhile_append_dropWhile, List.reverse_reverse]

/-- A text is its trimmed text between blanks. -/
theorem exists_append_trim_append (text : String) :
    ∃ front back : List Char, text.toList = front ++ (trim text).toList ++ back ∧
      (∀ c ∈ front, isBlank c) ∧ ∀ c ∈ back, isBlank c := by
  let rest := text.toList.dropWhile isBlank
  refine ⟨text.toList.takeWhile isBlank, (rest.reverse.takeWhile isBlank).reverse, ?_, ?_, ?_⟩
  · rw [trim, String.toList_ofList, trimChars, List.append_assoc, trimRight_append_blanks rest]
    exact List.takeWhile_append_dropWhile.symm
  · intro c hc
    exact List.all_eq_true.mp List.all_takeWhile c hc
  · intro c hc
    exact List.all_eq_true.mp List.all_takeWhile c (List.mem_reverse.mp hc)

/-- A text is its trimmed text between blanks, and the trimmed text has no further blank at either
end. -/
structure Trimmed (text inner : List Char) : Prop where
  between : ∃ front back : List Char, text = front ++ inner ++ back ∧
    (∀ c ∈ front, isBlank c) ∧ ∀ c ∈ back, isBlank c
  first : ∀ c rest, inner = c :: rest → isBlank c = false
  last : ∀ rest c, inner = rest ++ [c] → isBlank c = false

theorem not_isBlank_of_dropWhile_eq_cons {cs rest : List Char} {c : Char}
    (h : cs.dropWhile isBlank = c :: rest) : isBlank c = false := by
  have hhead := List.head?_dropWhile_not isBlank cs
  rw [h] at hhead
  simpa using hhead

theorem trimmed_trim (text : String) : Trimmed text.toList (trim text).toList where
  between := exists_append_trim_append text
  first c rest h := by
    rw [trim, String.toList_ofList, trimChars] at h
    -- what is taken away on the right leaves the first character in its place
    have hcs := trimRight_append_blanks (text.toList.dropWhile isBlank)
    rw [h, List.cons_append] at hcs
    exact not_isBlank_of_dropWhile_eq_cons hcs.symm
  last rest c h := by
    rw [trim, String.toList_ofList, trimChars, trimRight, ← List.reverse_inj,
      List.reverse_reverse, List.reverse_append] at h
    exact not_isBlank_of_dropWhile_eq_cons h

theorem trimRight_append {back : List Char} (h : ∀ c ∈ back, isBlank c) (cs : List Char) :
    trimRight (cs ++ back) = trimRight cs := by
  have hreverse : ∀ c ∈ back.reverse, isBlank c := fun c hc => h c (List.mem_reverse.mp hc)
  rw [trimRight, trimRight, List.reverse_append, List.dropWhile_append_of_pos hreverse]

/-- Blanks at both ends of a text do not change what is left of it when it is trimmed. -/
theorem trim_of_between {text inner : String} {front back : List Char}
    (h : text.toList = front ++ inner.toList ++ back) (hfront : ∀ c ∈ front, isBlank c)
    (hback : ∀ c ∈ back, isBlank c) : trim text = trim inner := by
  have hnothing : back.dropWhile isBlank = [] := by
    rw [← List.append_nil back, List.dropWhile_append_of_pos hback]
    rfl
  rw [trim, trim, h, trimChars, trimChars, List.append_assoc, List.dropWhile_append_of_pos hfront,
    List.dropWhile_append]
  split
  · next hempty => rw [hnothing, List.isEmpty_iff.mp hempty]
  · rw [trimRight_append hback]

theorem trim_eq_self {text : String} (h : ∀ c ∈ text.toList, isBlank c = false) :
    trim text = text := by
  obtain ⟨front, back, hsplit, hfront, hback⟩ := exists_append_trim_append text
  -- a blank in front or behind would be a character of the text
  have hnil {blanks : List Char} (hsub : blanks ⊆ text.toList) (hblank : ∀ c ∈ blanks, isBlank c) :
      blanks = [] :=
    List.eq_nil_iff_forall_not_mem.mpr fun c hc =>
      absurd (hblank c hc) (by rw [h c (hsub hc)]; exact Bool.false_ne_true)
  have hfrontNil : front = [] := hnil (fun c hc => by simp [hsplit, hc]) hfront
  have hbackNil : back = [] := hnil (fun c hc => by simp [hsplit, hc]) hback
  rw [hfrontNil, hbackNil, List.nil_append, List.append_nil] at hsplit
  exact (String.toList_inj.mp hsplit).symm

theorem find?_trim (form : Form) (text : String) : find? form (trim text) = find? form text := by
  obtain ⟨front, back, hsplit, hfront, hback⟩ := exists_append_trim_append text
  exact (find?_of_between form hsplit (fun c hc => ofChar_of_isBlank (hfront c hc))
    fun c hc => ofChar_of_isBlank (hback c hc)).symm

/-! ### Expressions among white space -/

theorem find?_single_of_ofText?_trim {text : String} {e : Expression}
    (h : Expression.ofText? (trim text) = some e) : find? .single text = some e := by
  obtain ⟨s, hchars, hdenotes⟩ := Expression.ofText?_eq_some_iff.mp h
  rw [← find?_trim]
  exact find?_of_chars_eq hchars hdenotes

theorem find?_repeated_of_ofText?_trim {text : String} {e : Expression}
    (h : Expression.ofText? (trim text) = some e) : find? .repeated text = none := by
  obtain ⟨s, hchars, _⟩ := Expression.ofText?_eq_some_iff.mp h
  rw [← find?_trim, find?_eq_none_iff, ← hchars]
  exact not_occurs_repeated_of_hash_not_mem s.hash_not_mem_chars

end ChatDice
