/-
What the readers of dice notation take from the front of their input.

A reader takes a spelling, and as much as it can: it stops where nothing that follows could make
the spelling longer (`Spelling.Stops`). This says everything about the readers:

* **`readNumeral?_eq_some_iff`**, **`readModifier_eq_iff`**, **`readExpression?_eq_some_iff`**,
  **`readRollSet?_eq_some_iff`** — a reader returns a spelling if and only if the spelling is at
  the front and stops where the rest begins;
* **`Form.read?_longest`** — no spelling at the front is longer than the one that is read;
* **`Form.symbols_injective`** — no two written forms have the same symbols.
-/
import ChatDice.Notation.Search

namespace ChatDice

/-! ### Spellings as symbols -/

def Numeral.symbols (n : Numeral) : List Symbol :=
  n.digits.map Symbol.digit

def Sign.symbol : Sign → Symbol
  | plus => .plus
  | minus => .minus

def SignedNumeral.symbols (n : SignedNumeral) : List Symbol :=
  n.sign.symbol :: n.magnitude.symbols

def Spelling.symbols (s : Spelling) : List Symbol :=
  s.count.symbols ++ .dee :: s.sides.symbols ++ (s.modifier.map SignedNumeral.symbols).getD []

def SetSpelling.symbols (s : SetSpelling) : List Symbol :=
  s.repeats.symbols ++ .hash :: s.spelling.symbols

/-- A numeral with further digits behind it. -/
def Numeral.extend (n : Numeral) (digits : List (Fin 10)) : Numeral where
  digits := n.digits ++ digits
  nonempty := List.append_ne_nil_of_left_ne_nil n.nonempty digits

@[simp] theorem Numeral.symbols_extend (n : Numeral) (digits : List (Fin 10)) :
    (n.extend digits).symbols = n.symbols ++ digits.map .digit :=
  List.map_append

def SignedNumeral.extend (n : SignedNumeral) (digits : List (Fin 10)) : SignedNumeral where
  sign := n.sign
  magnitude := n.magnitude.extend digits

@[simp] theorem SignedNumeral.symbols_extend (n : SignedNumeral) (digits : List (Fin 10)) :
    (n.extend digits).symbols = n.symbols ++ digits.map .digit := by
  simp [SignedNumeral.symbols, SignedNumeral.extend]

/-! ### Where reading stops -/

/-- The first symbol, if there is one, is no digit. -/
def NoDigit (input : List Symbol) : Prop :=
  ∀ d rest, input ≠ .digit d :: rest

/-- No signed number stands at the front. -/
def NoModifier (input : List Symbol) : Prop :=
  ∀ (n : SignedNumeral) rest, input ≠ n.symbols ++ rest

/-- Nothing that follows could make the spelling longer. -/
def Spelling.Stops (s : Spelling) (rest : List Symbol) : Prop :=
  NoDigit rest ∧ (s.modifier = none → NoModifier rest)

theorem noDigit_nil : NoDigit [] := nofun

theorem noDigit_cons {symbol : Symbol} (h : symbol.isDigit = false) (rest : List Symbol) :
    NoDigit (symbol :: rest) := by
  rintro d rest' heq
  rw [(List.cons.inj heq).1] at h
  exact absurd h (by simp [Symbol.isDigit])

theorem spanDigits_of_noDigit {rest : List Symbol} (h : NoDigit rest) :
    spanDigits rest = ([], rest) := by
  match rest with
  | [] => rfl
  | .digit d :: rest => exact absurd rfl (h d rest)
  | .dee :: _ | .hash :: _ | .plus :: _ | .minus :: _ | .other :: _ => rfl

/-- The digits at the front of an input are taken up to where they end. -/
theorem spanDigits_append (digits : List (Fin 10)) {rest : List Symbol} (h : NoDigit rest) :
    spanDigits (digits.map .digit ++ rest) = (digits, rest) := by
  induction digits with
  | nil => exact spanDigits_of_noDigit h
  | cons d digits ih =>
    rw [List.map_cons, List.cons_append, spanDigits, ih]

/-- Every input is a run of digits, possibly empty, before a symbol that is none. -/
theorem exists_digits (input : List Symbol) :
    ∃ (digits : List (Fin 10)) (rest : List Symbol),
      input = digits.map .digit ++ rest ∧ NoDigit rest := by
  induction input with
  | nil => exact ⟨[], [], rfl, noDigit_nil⟩
  | cons symbol input ih =>
    by_cases h : symbol.isDigit
    · obtain ⟨digits, rest, rfl, hrest⟩ := ih
      cases symbol with
      | digit d => exact ⟨d :: digits, rest, rfl, hrest⟩
      | _ => exact absurd h (by simp [Symbol.isDigit])
    · exact ⟨[], symbol :: input, rfl, noDigit_cons (by simpa using h) input⟩

theorem readNumeral?_eq_some_iff {input rest : List Symbol} {n : Numeral} :
    readNumeral? input = some (n, rest) ↔ input = n.symbols ++ rest ∧ NoDigit rest := by
  obtain ⟨digits, left, rfl, hleft⟩ := exists_digits input
  rw [readNumeral?, spanDigits_append digits hleft]
  constructor
  · intro h
    match digits, h with
    | d :: digits, h =>
      obtain ⟨rfl, rfl⟩ := Prod.mk.inj (Option.some.inj h)
      exact ⟨rfl, hleft⟩
  · rintro ⟨heq, hrest⟩
    -- the same input splits in two ways at the end of its digits
    have hspan := spanDigits_append digits hleft
    rw [heq, Numeral.symbols, spanDigits_append n.digits hrest] at hspan
    obtain ⟨rfl, rfl⟩ := Prod.mk.inj hspan
    match n with
    | ⟨d :: digits, _⟩ => rfl

theorem expect?_eq_some_iff {symbol : Symbol} {input rest : List Symbol} :
    expect? symbol input = some rest ↔ input = symbol :: rest := by
  match input with
  | [] => exact ⟨nofun, nofun⟩
  | s :: input =>
    rw [expect?]
    split
    · next h => rw [h, Option.some_inj, List.cons.injEq]; exact (and_iff_right rfl).symm
    · next h => exact ⟨nofun, fun heq => absurd (List.cons.inj heq).1 h⟩

theorem readSign?_eq_some_iff {input rest : List Symbol} {sign : Sign} :
    readSign? input = some (sign, rest) ↔ input = sign.symbol :: rest := by
  match input with
  | [] => exact ⟨nofun, nofun⟩
  | s :: input => cases s <;> cases sign <;> simp [readSign?, Sign.symbol]

theorem readSignedNumeral?_eq_some_iff {input rest : List Symbol} {n : SignedNumeral} :
    readSignedNumeral? input = some (n, rest) ↔ input = n.symbols ++ rest ∧ NoDigit rest := by
  simp only [readSignedNumeral?, Option.bind_eq_bind, Option.pure_def, Option.bind_eq_some_iff,
    Prod.exists, readSign?_eq_some_iff, readNumeral?_eq_some_iff, Option.some_inj, Prod.mk.injEq]
  constructor
  · rintro ⟨sign, left, rfl, magnitude, _, ⟨rfl, hrest⟩, rfl, rfl⟩
    exact ⟨rfl, hrest⟩
  · rintro ⟨rfl, hrest⟩
    exact ⟨n.sign, _, rfl, n.magnitude, rest, ⟨rfl, hrest⟩, rfl, rfl⟩

theorem readSignedNumeral?_eq_none_iff {input : List Symbol} :
    readSignedNumeral? input = none ↔ NoModifier input := by
  constructor
  · rintro h n rest rfl
    -- reading would take `n` with all the digits that follow
    obtain ⟨digits, left, rfl, hleft⟩ := exists_digits rest
    have hread : readSignedNumeral? (n.symbols ++ (digits.map .digit ++ left)) =
        some (n.extend digits, left) :=
      readSignedNumeral?_eq_some_iff.mpr ⟨by simp, hleft⟩
    rw [h] at hread
    exact nomatch hread
  · intro h
    match hread : readSignedNumeral? input with
    | none => rfl
    | some (n, rest) => exact absurd (readSignedNumeral?_eq_some_iff.mp hread).1 (h n rest)

theorem readModifier_eq_iff {input rest : List Symbol} {m : Option SignedNumeral} :
    readModifier input = (m, rest) ↔
      input = (m.map SignedNumeral.symbols).getD [] ++ rest ∧
        (m ≠ none → NoDigit rest) ∧ (m = none → NoModifier rest) := by
  rw [readModifier]
  cases hread : readSignedNumeral? input with
  | none =>
    have hnone := readSignedNumeral?_eq_none_iff.mp hread
    constructor
    · rintro ⟨⟩
      exact ⟨rfl, fun h => absurd rfl h, fun _ => hnone⟩
    · cases m with
      | none => rintro ⟨rfl, _, _⟩; rfl
      | some n => rintro ⟨heq, _, _⟩; exact absurd heq (hnone n rest)
  | some read =>
    obtain ⟨n, left⟩ := read
    have hsome := readSignedNumeral?_eq_some_iff.mp hread
    constructor
    · rintro ⟨⟩
      exact ⟨hsome.1, fun _ => hsome.2, nofun⟩
    · cases m with
      | none => rintro ⟨rfl, _, h⟩; exact absurd hsome.1 (h rfl n left)
      | some n' =>
        rintro ⟨heq, h, _⟩
        have hread' := readSignedNumeral?_eq_some_iff.mpr ⟨heq, h (Option.some_ne_none n')⟩
        rw [hread] at hread'
        obtain ⟨rfl, rfl⟩ := Prod.mk.inj (Option.some.inj hread')
        rfl

theorem noDigit_modifier_append (n : SignedNumeral) (rest : List Symbol) :
    NoDigit (n.symbols ++ rest) :=
  noDigit_cons (by cases n.sign <;> rfl) _

/-- Reading an expression returns a spelling at the front of the input that nothing behind it
could make longer, and every such spelling is read. -/
theorem readExpression?_eq_some_iff {input rest : List Symbol} {s : Spelling} :
    readExpression? input = some (s, rest) ↔ input = s.symbols ++ rest ∧ s.Stops rest := by
  simp only [readExpression?, Option.bind_eq_bind, Option.pure_def, Option.bind_eq_some_iff,
    Prod.exists, expect?_eq_some_iff, readNumeral?_eq_some_iff, Option.some_inj, Prod.mk.injEq]
  constructor
  · rintro ⟨count, _, ⟨rfl, _⟩, _, rfl, sides, left, ⟨rfl, hleft⟩, rfl, hrest⟩
    have hread : readModifier left = ((readModifier left).1, rest) := Prod.ext rfl hrest
    obtain ⟨heq, hsome, hnone⟩ := readModifier_eq_iff.mp hread
    refine ⟨?_, ?_, hnone⟩
    · simp only [Spelling.symbols, List.append_assoc, List.cons_append]
      rw [← heq]
    · -- without a modifier, what stops the number of sides stops the whole
      cases hm : (readModifier left).1 with
      | some n => exact hsome (by simp [hm])
      | none => rw [heq, hm] at hleft; exact hleft
  · rintro ⟨rfl, hdigit, hmodifier⟩
    have hleft : NoDigit ((s.modifier.map SignedNumeral.symbols).getD [] ++ rest) := by
      cases s.modifier with
      | none => exact hdigit
      | some n => exact noDigit_modifier_append n rest
    have hread : readModifier ((s.modifier.map SignedNumeral.symbols).getD [] ++ rest) =
        (s.modifier, rest) :=
      readModifier_eq_iff.mpr ⟨rfl, fun _ => hdigit, hmodifier⟩
    refine ⟨s.count, _, ⟨?_, noDigit_cons rfl _⟩, _, rfl, s.sides, _, ⟨rfl, hleft⟩, ?_, ?_⟩
    · simp [Spelling.symbols]
    · rw [hread]
    · rw [hread]

theorem readRollSet?_eq_some_iff {input rest : List Symbol} {s : SetSpelling} :
    readRollSet? input = some (s, rest) ↔ input = s.symbols ++ rest ∧ s.spelling.Stops rest := by
  simp only [readRollSet?, Option.bind_eq_bind, Option.pure_def, Option.bind_eq_some_iff,
    Prod.exists, expect?_eq_some_iff, readNumeral?_eq_some_iff, readExpression?_eq_some_iff,
    Option.some_inj, Prod.mk.injEq]
  constructor
  · rintro ⟨repeats, _, ⟨rfl, _⟩, _, rfl, spelling, _, ⟨rfl, hstops⟩, rfl, rfl⟩
    exact ⟨by simp [SetSpelling.symbols], hstops⟩
  · rintro ⟨rfl, hstops⟩
    refine ⟨s.repeats, _, ⟨?_, noDigit_cons rfl _⟩, _, rfl, s.spelling, rest, ⟨rfl, hstops⟩, rfl, rfl⟩
    simp [SetSpelling.symbols]

/-! ### The longest spelling at the front -/

/-- A written expression can be made longer until nothing behind it could make it longer still. -/
theorem Spelling.exists_stops (s : Spelling) (rest : List Symbol) :
    ∃ (longer : Spelling) (left : List Symbol), longer.symbols ++ left = s.symbols ++ rest ∧
      longer.Stops left ∧ s.symbols.length ≤ longer.symbols.length := by
  obtain ⟨digits, left, rfl, hleft⟩ := exists_digits rest
  obtain ⟨count, sides, modifier⟩ := s
  -- the digits that follow belong to the last number; behind the sides a modifier may follow too
  cases modifier with
  | some n =>
    refine ⟨⟨count, sides, some (n.extend digits)⟩, left, ?_, ⟨hleft, nofun⟩, ?_⟩
    · simp [Spelling.symbols]
    · simp [Spelling.symbols]
  | none =>
    cases hread : readModifier left with
    | mk m left' =>
      obtain ⟨rfl, hsome, hnone⟩ := readModifier_eq_iff.mp hread
      refine ⟨⟨count, sides.extend digits, m⟩, left', ?_, ⟨?_, hnone⟩, ?_⟩
      · simp [Spelling.symbols]
      · cases m with
        | none => exact hleft
        | some n => exact hsome (Option.some_ne_none n)
      · simp [Spelling.symbols]

/-! ### Both forms -/

namespace Form

def symbols : (form : Form) → form.Spelled → List Symbol
  | single => Spelling.symbols
  | repeated => SetSpelling.symbols

/-- Nothing that follows could make the written form longer. -/
def Stops : (form : Form) → form.Spelled → List Symbol → Prop
  | single => Spelling.Stops
  | repeated => fun s => s.spelling.Stops

theorem read?_eq_some_iff (form : Form) {input rest : List Symbol} {s : form.Spelled} :
    form.read? input = some (s, rest) ↔ input = form.symbols s ++ rest ∧ form.Stops s rest := by
  cases form with
  | single => exact readExpression?_eq_some_iff
  | repeated => exact readRollSet?_eq_some_iff

theorem exists_stops (form : Form) (s : form.Spelled) (rest : List Symbol) :
    ∃ (longer : form.Spelled) (left : List Symbol),
      form.symbols longer ++ left = form.symbols s ++ rest ∧ form.Stops longer left ∧
        (form.symbols s).length ≤ (form.symbols longer).length := by
  cases form with
  | single => exact Spelling.exists_stops s rest
  | repeated =>
    obtain ⟨repeats, spelling⟩ := s
    obtain ⟨longer, left, heq, hstops, hlength⟩ := spelling.exists_stops rest
    refine ⟨⟨repeats, longer⟩, left, ?_, hstops, ?_⟩
    · simp [symbols, SetSpelling.symbols, heq]
    · simpa [symbols, SetSpelling.symbols] using hlength

/-- If a spelling stands at the front of an input, reading succeeds, and what it takes is at
least as long. -/
theorem read?_longest (form : Form) (s : form.Spelled) (rest : List Symbol) :
    ∃ (longer : form.Spelled) (left : List Symbol),
      form.read? (form.symbols s ++ rest) = some (longer, left) ∧
        (form.symbols s).length ≤ (form.symbols longer).length := by
  obtain ⟨longer, left, heq, hstops, hlength⟩ := form.exists_stops s rest
  exact ⟨longer, left, form.read?_eq_some_iff.mpr ⟨heq.symm, hstops⟩, hlength⟩

theorem read?_eq_none_iff (form : Form) {input : List Symbol} :
    form.read? input = none ↔ ∀ s rest, input ≠ form.symbols s ++ rest := by
  constructor
  · rintro h s rest rfl
    obtain ⟨longer, left, hread, _⟩ := form.read?_longest s rest
    rw [h] at hread
    exact nomatch hread
  · intro h
    match hread : form.read? input with
    | none => rfl
    | some (s, rest) => exact absurd (form.read?_eq_some_iff.mp hread).1 (h s rest)

theorem stops_nil (form : Form) (s : form.Spelled) : form.Stops s [] := by
  have hstops (s : Spelling) : s.Stops [] := ⟨noDigit_nil, fun _ => nofun⟩
  cases form with
  | single => exact hstops s
  | repeated => exact hstops s.spelling

theorem symbols_injective (form : Form) : Function.Injective form.symbols := by
  intro s s' heq
  have hread (s : form.Spelled) : form.read? (form.symbols s) = some (s, []) :=
    form.read?_eq_some_iff.mpr ⟨(List.append_nil _).symm, form.stops_nil s⟩
  have hsome := (hread s).symm.trans (heq ▸ hread s')
  exact (Prod.mk.inj (Option.some.inj hsome)).1

theorem symbols_eq_cons (form : Form) (s : form.Spelled) :
    ∃ d rest, form.symbols s = .digit d :: rest := by
  have hnumeral (n : Numeral) (rest : List Symbol) :
      ∃ d rest', n.symbols ++ rest = .digit d :: rest' := by
    match n with
    | ⟨d :: digits, _⟩ => exact ⟨d, _, rfl⟩
  cases form with
  | single =>
    rw [symbols, Spelling.symbols, List.append_assoc]
    exact hnumeral s.count _
  | repeated => exact hnumeral s.repeats _

theorem ne_other_of_mem_symbols (form : Form) {s : form.Spelled} {symbol : Symbol}
    (h : symbol ∈ form.symbols s) : symbol ≠ .other := by
  have hnumeral {n : Numeral} (h : .other ∈ n.symbols) : False := by
    obtain ⟨d, _, hd⟩ := List.mem_map.mp h
    exact nomatch hd
  have hsigned {n : SignedNumeral} (h : .other ∈ n.symbols) : False := by
    rcases List.mem_cons.mp h with hsign | hmagnitude
    · cases hn : n.sign <;> rw [hn] at hsign <;> exact nomatch hsign
    · exact hnumeral hmagnitude
  have hspelling {s : Spelling} (h : .other ∈ s.symbols) : False := by
    obtain ⟨count, sides, modifier⟩ := s
    simp only [Spelling.symbols, List.mem_append, List.mem_cons] at h
    rcases h with (hcount | hdee | hsides) | hmodifier
    · exact hnumeral hcount
    · exact nomatch hdee
    · exact hnumeral hsides
    · cases modifier with
      | none => exact nomatch hmodifier
      | some n => exact hsigned hmodifier
  rintro rfl
  cases form with
  | single => exact hspelling h
  | repeated =>
    rcases List.mem_append.mp h with hrepeats | hrest
    · exact hnumeral hrepeats
    · rcases List.mem_cons.mp hrest with hhash | hmem
      · exact nomatch hhash
      · exact hspelling hmem

/-- A digit in front of a written form gives a written form. -/
theorem exists_symbols_eq_cons (form : Form) (s : form.Spelled) (d : Fin 10) :
    ∃ longer, form.symbols longer = .digit d :: form.symbols s := by
  let longer (n : Numeral) : Numeral := ⟨d :: n.digits, List.cons_ne_nil d n.digits⟩
  cases form with
  | single => exact ⟨⟨longer s.count, s.sides, s.modifier⟩, rfl⟩
  | repeated => exact ⟨⟨longer s.repeats, s.spelling⟩, rfl⟩

end Form

end ChatDice
