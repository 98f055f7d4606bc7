/-
Reading the bytes of a text with a cursor.

The readers of dice notation take a list of symbols apart, so nothing in them can be out of range. A
scanner that keeps the bytes in one piece and moves a cursor over them needs less memory and more
care: it cuts a run of digits out between two positions, and takes the code of a zero away from
each byte of the run. `Cursor.search` is such a scanner, with both operations checked.

* **`Cursor.Follows`** — a scan from any position ends without a fault, reads what a reader makes of
  the bytes from there on, and leaves the cursor where the reader stops;
* **`Cursor.scan_follows`** — so do the scans for expressions and roll sets;
* **`Cursor.find_eq`**, **`Cursor.wholeText_eq`** — a search with a cursor through any text, and a
  scan of the whole of it, never are out of range, and come to the same as without a cursor.

Design notes: a reader works on a list of symbols, which is what the cursor has in front of it
(`Cursor.suffix`). Reading and scanning are put together in the same way, so `Cursor.Follows` is shown
for each part and carried over by `Cursor.Follows.bind`.
-/
import Mathlib.Data.List.Forall2
import Mathlib.Tactic.SplitIfs
import ChatDice.Proofs.Notation.Reading

namespace ChatDice

/-- An operation of a scanner that is out of range. -/
inductive CursorFault where
  /-- The ends of a slice are not in order, or not both within the bytes. -/
  | slice (start stop : Nat)
  /-- A byte that is to be the code of a digit is less than that of a zero. -/
  | digit (byte : UInt8)
  deriving DecidableEq

namespace Cursor

/-! ### Scans -/

/-- A scan reads something from the position of the cursor on and leaves the cursor behind it, or
finds that it is not there. -/
abbrev Scan := StateT Nat (OptionT (Except CursorFault))

def Scan.runFrom {α : Type} (scan : Scan α) (position : Nat) :
    Except CursorFault (Option (α × Nat)) :=
  (StateT.run scan position).run

section

variable {α β : Type}

theorem runFrom_bind (scan : Scan α) (next : α → Scan β) (position : Nat) :
    (scan >>= next).runFrom position =
      match scan.runFrom position with
      | .error fault => .error fault
      | .ok none => .ok none
      | .ok (some (a, position)) => (next a).runFrom position := by
  unfold Scan.runFrom StateT.run OptionT.run
  simp only [bind, StateT.bind, OptionT.bind, OptionT.mk, Except.bind]
  cases scan position with
  | error fault => rfl
  | ok result => cases result <;> rfl

theorem runFrom_orElse (scan other : Scan α) (position : Nat) :
    (scan <|> other).runFrom position =
      match scan.runFrom position with
      | .ok none => other.runFrom position
      | result => result := by
  unfold Scan.runFrom StateT.run OptionT.run
  simp only [HOrElse.hOrElse, OrElse.orElse, Alternative.orElse, StateT.orElse, OptionT.orElse,
    OptionT.mk, bind, Except.bind]
  cases scan position with
  | error fault => rfl
  | ok result => cases result <;> rfl

theorem runFrom_get_bind (next : Nat → Scan α) (position : Nat) :
    (get >>= next).runFrom position = (next position).runFrom position := rfl

theorem runFrom_liftM (value : Except CursorFault α) (position : Nat) :
    (liftM value : Scan α).runFrom position = value.map fun a => some (a, position) := by
  cases value <;> rfl

end

/-! ### The scanners -/

def isDigit (byte : UInt8) : Bool :=
  48 ≤ byte.toNat && byte.toNat ≤ 57

def slice (bytes : List UInt8) (start stop : Nat) : Except CursorFault (List UInt8) :=
  if start ≤ stop ∧ stop ≤ bytes.length then .ok ((bytes.take stop).drop start)
  else .error (.slice start stop)

def digitValue (byte : UInt8) : Except CursorFault Nat :=
  if 48 ≤ byte.toNat then .ok (byte.toNat - 48) else .error (.digit byte)

/-- The number that digits write, or `limit` if that is smaller. -/
def saturatedFrom (limit number : Nat) : List UInt8 → Except CursorFault Nat
  | [] => .ok number
  | byte :: digits => do
    saturatedFrom limit (min (10 * number + (← digitValue byte)) limit) digits

def fieldValue (digits : List UInt8) : Except CursorFault UInt32 := do
  return UInt32.ofNat (← saturatedFrom greatestUInt32 0 digits)

def signedValue : Sign → List UInt8 → Except CursorFault Int64
  | .plus, digits => do return Int64.ofInt (← saturatedFrom greatestInt64 0 digits)
  | .minus, digits => do return Int64.ofInt (-(← saturatedFrom leastInt64.natAbs 0 digits))

/-- The first position from the given one on that holds no digit. -/
def skipDigits (bytes : List UInt8) (position : Nat) : Nat :=
  if h : position < bytes.length then
    if isDigit bytes[position] then skipDigits bytes (position + 1) else position
  else position
termination_by bytes.length - position

def scanDigits (bytes : List UInt8) : Scan (List UInt8) := do
  let start ← get
  if start < skipDigits bytes start then
    set (skipDigits bytes start)
    slice bytes start (skipDigits bytes start)
  else failure

def scanField (bytes : List UInt8) : Scan UInt32 := do
  fieldValue (← scanDigits bytes)

def skipByte (bytes : List UInt8) (byte : UInt8) : Scan Unit := do
  let position ← get
  if bytes[position]? = some byte then set (position + 1) else failure

def scanSign (bytes : List UInt8) : Scan Sign :=
  (do skipByte bytes 43; return .plus) <|> (do skipByte bytes 45; return .minus)

def scanSigned (bytes : List UInt8) : Scan Int64 := do
  let sign ← scanSign bytes
  signedValue sign (← scanDigits bytes)

/-- Scan a modifier if there is one; the cursor goes back to a sign that no digit follows. -/
def scanModifier (bytes : List UInt8) : Scan Int64 :=
  scanSigned bytes <|> pure 0

def scanExpression (bytes : List UInt8) : Scan Expression := do
  let count ← scanField bytes
  skipByte bytes 100
  let sides ← scanField bytes
  let modifier ← scanModifier bytes
  return ⟨count, sides, modifier⟩

def scanRollSet (bytes : List UInt8) : Scan RollSet := do
  let repeats ← scanField bytes
  skipByte bytes 35
  let expression ← scanExpression bytes
  return ⟨repeats, expression⟩

def scan (bytes : List UInt8) : (form : Form) → Scan form.Value
  | .single => scanExpression bytes
  | .repeated => scanRollSet bytes

theorem le_skipDigits (bytes : List UInt8) (position : Nat) :
    position ≤ skipDigits bytes position := by
  fun_induction skipDigits bytes position with
  | case1 position h hdigit ih => omega
  | case2 position h hdigit => exact Nat.le_refl _
  | case3 position h => exact Nat.le_refl _

theorem skipDigits_le_length {bytes : List UInt8} {position : Nat} (h : position ≤ bytes.length) :
    skipDigits bytes position ≤ bytes.length := by
  fun_induction skipDigits bytes position with
  | case1 position hlt hdigit ih => exact ih hlt
  | case2 position hlt hdigit => exact h
  | case3 position hge => exact h

theorem skipDigits_of_isDigit {bytes : List UInt8} {position : Nat} (h : position < bytes.length)
    (hdigit : isDigit bytes[position]) :
    skipDigits bytes position = skipDigits bytes (position + 1) := by
  rw [skipDigits, dif_pos h, if_pos hdigit]

/-- Scan from the left, once in each run of digits. -/
def search {α : Type} (bytes : List UInt8) (scan : Scan α) (position : Nat) :
    Except CursorFault (Option α) :=
  if h : position < bytes.length then
    if hdigit : isDigit bytes[position] then
      match scan.runFrom position with
      | .error fault => .error fault
      | .ok (some (value, _)) => .ok (some value)
      | .ok none => search bytes scan (skipDigits bytes position)
    else search bytes scan (position + 1)
  else .ok none
termination_by bytes.length - position
decreasing_by
  · have hlater := le_skipDigits bytes (position + 1)
    rw [skipDigits_of_isDigit h hdigit]
    omega
  · omega

/-- The bytes of a text. -/
def ofText (text : String) : List UInt8 :=
  text.toByteArray.data.toList

def find (form : Form) (text : String) : Except CursorFault (Option form.Value) :=
  search (ofText text) (scan (ofText text) form) 0

/-- The expression that is all of a text. -/
def wholeText (text : String) : Except CursorFault (Option Expression) := do
  match ← (scanExpression (ofText text)).runFrom 0 with
  | none => return none
  | some (expression, position) =>
    return if position = (ofText text).length then some expression else none

/-! ### What a cursor sees -/

variable (bytes : List UInt8)

/-- The symbols from a position on. -/
def suffix (position : Nat) : List Symbol :=
  (bytes.drop position).map Symbol.ofByte

theorem suffix_of_lt {position : Nat} (h : position < bytes.length) :
    suffix bytes position = Symbol.ofByte bytes[position] :: suffix bytes (position + 1) := by
  rw [suffix, List.drop_eq_getElem_cons h]
  rfl

theorem suffix_eq_nil_iff {position : Nat} :
    suffix bytes position = [] ↔ bytes.length ≤ position := by
  rw [suffix, List.map_eq_nil_iff, List.drop_eq_nil_iff]

theorem isDigit_ofByte (byte : UInt8) : (Symbol.ofByte byte).isDigit = isDigit byte := by
  by_cases h : 48 ≤ byte.toNat ∧ byte.toNat < 58
  · have hle : byte.toNat ≤ 57 := by omega
    simp [Symbol.ofByte, Symbol.ofCode, h, isDigit, hle, Symbol.isDigit]
  · have hdigit : isDigit byte = false := by
      simp only [isDigit, Bool.and_eq_false_iff, decide_eq_false_iff_not]
      omega
    rw [hdigit, Symbol.ofByte, Symbol.ofCode, dif_neg h]
    split_ifs <;> rfl

theorem exists_digit_of_isDigit {byte : UInt8} (h : isDigit byte) :
    ∃ d : Fin 10, Symbol.ofByte byte = .digit d ∧ digitValue byte = .ok d.val := by
  have hcode : 48 ≤ byte.toNat ∧ byte.toNat ≤ 57 := by simpa [isDigit] using h
  refine ⟨⟨byte.toNat - 48, by omega⟩, ?_, ?_⟩
  · rw [Symbol.ofByte, Symbol.ofCode, dif_pos (by omega)]
  · rw [digitValue, if_pos hcode.1]

/-- The bytes of digits with certain values. -/
def Writes : List UInt8 → List (Fin 10) → Prop :=
  List.Forall₂ fun byte d => digitValue byte = .ok d.val

theorem saturatedFrom_of_writes {digits : List UInt8} {values : List (Fin 10)}
    (h : Writes digits values) (limit number : Nat) :
    saturatedFrom limit number digits =
      .ok (values.foldl (fun number d => min (10 * number + d.val) limit) number) := by
  induction h generalizing number with
  | nil => rfl
  | cons hdigit _ ih =>
    rw [saturatedFrom, hdigit]
    exact ih _

/-- The digits that the cursor passes over are those that a reader takes. -/
theorem exists_spanDigits_suffix {position : Nat} (h : position ≤ bytes.length) :
    ∃ values, spanDigits (suffix bytes position) =
        (values, suffix bytes (skipDigits bytes position)) ∧
      Writes ((bytes.take (skipDigits bytes position)).drop position) values := by
  fun_induction skipDigits bytes position with
  | case1 position hlt hdigit ih =>
    obtain ⟨values, hspan, hwrites⟩ := ih hlt
    have hle := skipDigits_le_length hlt
    obtain ⟨d, hsymbol, hvalue⟩ := exists_digit_of_isDigit hdigit
    have hlater := le_skipDigits bytes (position + 1)
    have hlength : position < (bytes.take (skipDigits bytes (position + 1))).length := by
      rw [List.length_take]
      omega
    refine ⟨d :: values, ?_, ?_⟩
    · rw [suffix_of_lt bytes hlt, hsymbol, spanDigits, hspan]
    · rw [List.drop_eq_getElem_cons hlength, List.getElem_take]
      exact .cons hvalue hwrites
  | case2 position hlt hdigit =>
    have hno : (Symbol.ofByte bytes[position]).isDigit = false := by
      rw [isDigit_ofByte]
      simpa using hdigit
    refine ⟨[], ?_, ?_⟩
    · rw [suffix_of_lt bytes hlt]
      exact spanDigits_of_noDigit (noDigit_cons hno _)
    · rw [List.drop_eq_nil_of_le (List.length_take_le _ _)]
      exact .nil
  | case3 position hge =>
    refine ⟨[], ?_, ?_⟩
    · rw [(suffix_eq_nil_iff bytes).mpr (Nat.le_of_not_lt hge)]
      rfl
    · rw [List.drop_eq_nil_of_le (List.length_take_le _ _)]
      exact .nil

/-! ### Scans and readers -/

variable {α β γ δ : Type}

/-- What a scan finds against what a reader returns. -/
inductive Agrees (means : β → α → Prop) : Option (β × Nat) → Option (α × List Symbol) → Prop
  | nothing : Agrees means none none
  | found {b : β} {a : α} {position : Nat} (value : means b a)
      (within : position ≤ bytes.length) :
      Agrees means (some (b, position)) (some (a, suffix bytes position))

/-- From every position within the bytes, a scan ends without a fault, and it finds what a reader
makes of the suffix. -/
def Follows (scan : Scan β) (reader : Reader α) (means : β → α → Prop) : Prop :=
  ∀ position, position ≤ bytes.length → ∃ result, scan.runFrom position = .ok result ∧
    Agrees bytes means result (reader (suffix bytes position))

variable {bytes} {means : β → α → Prop}

theorem Follows.bind {scan : Scan β} {reader : Reader α} {next : β → Scan δ}
    {read' : α × List Symbol → Option (γ × List Symbol)} {means' : δ → γ → Prop}
    (h : Follows bytes scan reader means)
    (hnext : ∀ b a, means b a → Follows bytes (next b) (fun input => read' (a, input)) means') :
    Follows bytes (scan >>= next) (fun input => (reader input).bind read') means' := by
  intro position hposition
  obtain ⟨result, hscan, hagrees⟩ := h position hposition
  rw [runFrom_bind, hscan]
  dsimp only
  generalize reader (suffix bytes position) = read at hagrees ⊢
  cases hagrees with
  | nothing => exact ⟨none, rfl, .nothing⟩
  | found hvalue hwithin => exact hnext _ _ hvalue _ hwithin

theorem follows_liftM {value : Except CursorFault β} {b : β} {a : α} (hvalue : value = .ok b)
    (hmeans : means b a) : Follows bytes (liftM value) (fun input => some (a, input)) means := by
  intro position hposition
  rw [runFrom_liftM, hvalue]
  exact ⟨_, rfl, .found hmeans hposition⟩

theorem follows_pure {b : β} {a : α} (hmeans : means b a) :
    Follows bytes (pure b) (fun input => some (a, input)) means :=
  fun _ hposition => ⟨_, rfl, .found hmeans hposition⟩

variable (bytes)

/-! ### Digits and single bytes -/

theorem scanDigits_follows :
    Follows bytes (scanDigits bytes) readNumeral? fun digits n => Writes digits n.digits := by
  intro position h
  obtain ⟨values, hspan, hwrites⟩ := exists_spanDigits_suffix bytes h
  have hlater := le_skipDigits bytes position
  have hle := skipDigits_le_length h
  have hlength := hwrites.length_eq
  rw [List.length_drop, List.length_take] at hlength
  rw [scanDigits, runFrom_get_bind, readNumeral?, hspan]
  cases values with
  | nil =>
    rw [List.length_nil] at hlength
    rw [if_neg (by omega)]
    exact ⟨none, rfl, .nothing⟩
  | cons d values =>
    rw [List.length_cons] at hlength
    rw [if_pos (by omega), slice, if_pos ⟨hlater, hle⟩]
    exact ⟨_, rfl, .found hwrites hle⟩

theorem ofByte_eq_iff (byte : UInt8) :
    (Symbol.ofByte byte = .dee ↔ byte = 100) ∧ (Symbol.ofByte byte = .hash ↔ byte = 35) ∧
      (Symbol.ofByte byte = .plus ↔ byte = 43) ∧ (Symbol.ofByte byte = .minus ↔ byte = 45) := by
  simp only [← UInt8.toNat_inj, Symbol.ofByte, Symbol.ofCode]
  split_ifs with hdigit hdee hhash hplus hminus <;> simp <;> omega

theorem runFrom_skipByte (byte : UInt8) (position : Nat) :
    (skipByte bytes byte).runFrom position =
      .ok (if bytes[position]? = some byte then some ((), position + 1) else none) := by
  rw [skipByte, runFrom_get_bind]
  split <;> rfl

theorem skipByte_follows {byte : UInt8} {symbol : Symbol}
    (hsymbol : ∀ b, Symbol.ofByte b = symbol ↔ b = byte) :
    Follows bytes (skipByte bytes byte)
      (fun input => (expect? symbol input).map fun rest => ((), rest)) fun _ _ => True := by
  intro position h
  refine ⟨_, runFrom_skipByte bytes byte position, ?_⟩
  by_cases hlt : position < bytes.length
  · rw [List.getElem?_eq_getElem hlt, suffix_of_lt bytes hlt]
    simp only [expect?, hsymbol, Option.some_inj]
    split
    · exact .found trivial hlt
    · exact .nothing
  · have hend := Nat.le_of_not_lt hlt
    rw [List.getElem?_eq_none hend, (suffix_eq_nil_iff bytes).mpr hend]
    exact .nothing

theorem scanSign_follows :
    Follows bytes (scanSign bytes) readSign? fun sign sign' => sign' = sign := by
  intro position h
  rw [scanSign, runFrom_orElse, runFrom_bind, runFrom_bind, runFrom_skipByte, runFrom_skipByte]
  by_cases hlt : position < bytes.length
  · obtain ⟨_, _, hplus, hminus⟩ := ofByte_eq_iff bytes[position]
    rw [List.getElem?_eq_getElem hlt, suffix_of_lt bytes hlt]
    simp only [Option.some_inj, ← hplus, ← hminus]
    cases Symbol.ofByte bytes[position] with
    | plus => exact ⟨_, rfl, .found rfl hlt⟩
    | minus => exact ⟨_, rfl, .found rfl hlt⟩
    | _ => exact ⟨_, rfl, .nothing⟩
  · have hend := Nat.le_of_not_lt hlt
    rw [List.getElem?_eq_none hend, (suffix_eq_nil_iff bytes).mpr hend]
    exact ⟨_, rfl, .nothing⟩

/-! ### Numbers -/

theorem scanField_follows :
    Follows bytes (scanField bytes) readNumeral? fun field n => n.field = field := by
  have hfield {digits : List UInt8} {n : Numeral} (h : Writes digits n.digits) :
      fieldValue digits = .ok n.field := by
    rw [fieldValue, saturatedFrom_of_writes h]
    rfl
  -- the number is made of the digits once they are read
  have hreader : readNumeral? = fun input => (readNumeral? input).bind some :=
    funext fun input => (Option.bind_fun_some _).symm
  rw [hreader]
  exact (scanDigits_follows bytes).bind fun digits n hwrites => follows_liftM (hfield hwrites) rfl

theorem signedValue_of_writes {digits : List UInt8} {magnitude : Numeral}
    (h : Writes digits magnitude.digits) (sign : Sign) :
    signedValue sign digits = .ok (SignedNumeral.mk sign magnitude).saturated := by
  cases sign with
  | plus =>
    rw [signedValue, saturatedFrom_of_writes h]
    rfl
  | minus =>
    rw [signedValue, saturatedFrom_of_writes h]
    rfl

theorem scanSigned_follows :
    Follows bytes (scanSigned bytes) readSignedNumeral? fun value n => n.saturated = value := by
  refine (scanSign_follows bytes).bind fun sign _ hsign => ?_
  obtain rfl := hsign
  exact (scanDigits_follows bytes).bind fun digits magnitude hwrites =>
    follows_liftM (signedValue_of_writes hwrites _) rfl

theorem scanModifier_follows :
    Follows bytes (scanModifier bytes) (fun input => some (readModifier input))
      fun value m => (match m with | some n => n.saturated | none => 0) = value := by
  intro position hposition
  obtain ⟨result, hscan, hagrees⟩ := scanSigned_follows bytes position hposition
  rw [scanModifier, runFrom_orElse, hscan]
  simp only [readModifier]
  generalize readSignedNumeral? (suffix bytes position) = read at hagrees ⊢
  cases hagrees with
  | nothing =>
    -- the cursor goes back to where it was before the sign
    exact ⟨_, rfl, .found rfl hposition⟩
  | found hvalue hwithin => exact ⟨_, rfl, .found hvalue hwithin⟩

/-! ### Expressions and roll sets -/

/-- A mark between two numbers. -/
theorem Follows.skip {byte : UInt8} {symbol : Symbol}
    (hsymbol : ∀ b, Symbol.ofByte b = symbol ↔ b = byte) {scan : Scan β} {reader : Reader α}
    {means : β → α → Prop} (h : Follows bytes scan reader means) :
    Follows bytes (skipByte bytes byte >>= fun _ => scan)
      (fun input => (expect? symbol input).bind reader) means := by
  have hreader : (fun input => (expect? symbol input).bind reader) = fun input =>
      ((expect? symbol input).map fun rest => ((), rest)).bind fun read => reader read.2 := by
    funext input
    rw [Option.bind_map]
    rfl
  rw [hreader]
  exact (skipByte_follows bytes hsymbol).bind fun _ _ _ => h

theorem scanExpression_follows :
    Follows bytes (scanExpression bytes) readExpression? fun e s => s.expression = e := by
  refine (scanField_follows bytes).bind fun _ count hcount => ?_
  refine .skip bytes (fun b => (ofByte_eq_iff b).1) ?_
  refine (scanField_follows bytes).bind fun _ sides hsides => ?_
  show Follows bytes _ (fun input => (some (readModifier input)).bind fun read =>
    some ((⟨count, sides, read.1⟩ : Spelling), read.2)) _
  refine (scanModifier_follows bytes).bind fun _ modifier hmodifier => ?_
  refine follows_pure (a := (⟨count, sides, modifier⟩ : Spelling)) ?_
  obtain ⟨rfl, rfl, rfl⟩ := And.intro hcount (And.intro hsides hmodifier)
  rfl

theorem scanRollSet_follows :
    Follows bytes (scanRollSet bytes) readRollSet? fun r s => s.rollSet = r := by
  refine (scanField_follows bytes).bind fun _ repeats hrepeats => ?_
  refine .skip bytes (fun b => (ofByte_eq_iff b).2.1) ?_
  refine (scanExpression_follows bytes).bind fun _ spelling hspelling => follows_pure ?_
  rw [SetSpelling.rollSet, hrepeats, hspelling]

theorem scan_follows (form : Form) :
    Follows bytes (scan bytes form) form.read? fun value s => form.denote s = value := by
  cases form with
  | single => exact scanExpression_follows bytes
  | repeated => exact scanRollSet_follows bytes

/-! ### Searching -/

/-- Behind the first digit of a run, a search goes on as it does behind the run. -/
theorem locate_skipDigits (reader : Reader α) {position : Nat} (h : position ≤ bytes.length) :
    locate reader position true (suffix bytes position) =
      locate reader (skipDigits bytes position) false
        (suffix bytes (skipDigits bytes position)) := by
  fun_induction skipDigits bytes position with
  | case1 position hlt hdigit ih =>
    rw [← isDigit_ofByte] at hdigit
    rw [suffix_of_lt bytes hlt, locate, if_pos hdigit, if_pos rfl]
    exact ih hlt
  | case2 position hlt hdigit =>
    rw [← isDigit_ofByte] at hdigit
    rw [suffix_of_lt bytes hlt, locate, locate, if_neg hdigit, if_neg hdigit]
  | case3 position hge =>
    rw [(suffix_eq_nil_iff bytes).mpr (Nat.le_of_not_lt hge)]
    rfl

/-- At a digit, a search finds what can be read there, and else goes on behind it. -/
theorem locate_of_isDigit (reader : Reader α) {position : Nat} (h : position < bytes.length)
    (hdigit : isDigit bytes[position]) :
    (locate reader position false (suffix bytes position)).map Located.value =
      ((reader (suffix bytes position)).map Prod.fst).or
        ((locate reader (position + 1) true (suffix bytes (position + 1))).map Located.value) := by
  rw [← isDigit_ofByte] at hdigit
  rw [suffix_of_lt bytes h, locate, if_pos hdigit, if_neg Bool.false_ne_true]
  cases reader (Symbol.ofByte bytes[position] :: suffix bytes (position + 1)) with
  | none => rfl
  | some read => rfl

/-- A search with a cursor never is out of range, and finds what a search through the symbols
finds. -/
theorem search_eq {scan : Scan β} {reader : Reader α} {value : α → β}
    (hscan : Follows bytes scan reader fun b a => value a = b) {position : Nat}
    (h : position ≤ bytes.length) :
    search bytes scan position =
      .ok (((locate reader position false (suffix bytes position)).map Located.value).map value) := by
  -- a scan that fails is not repeated in its run of digits, and neither is a reading
  fun_induction search bytes scan position with
  | case1 position hlt hdigit fault hfault =>
    obtain ⟨result, hresult, _⟩ := hscan position h
    rw [hfault] at hresult
    cases hresult
  | case2 position hlt hdigit b next hfound =>
    obtain ⟨result, hresult, hagrees⟩ := hscan position h
    rw [hfound] at hresult
    obtain rfl := Except.ok.inj hresult
    rw [locate_of_isDigit bytes reader hlt hdigit]
    generalize reader (suffix bytes position) = read at hagrees ⊢
    cases hagrees with
    | found hvalue hwithin => rw [← hvalue]; rfl
  | case3 position hlt hdigit hnothing ih =>
    obtain ⟨result, hresult, hagrees⟩ := hscan position h
    rw [hnothing] at hresult
    obtain rfl := Except.ok.inj hresult
    rw [locate_of_isDigit bytes reader hlt hdigit, locate_skipDigits bytes reader hlt,
      ← skipDigits_of_isDigit hlt hdigit]
    generalize reader (suffix bytes position) = read at hagrees ⊢
    cases hagrees with
    | nothing => exact ih (skipDigits_le_length h)
  | case4 position hlt hdigit ih =>
    rw [← isDigit_ofByte] at hdigit
    rw [suffix_of_lt bytes hlt, locate, if_neg hdigit]
    exact ih hlt
  | case5 position hge =>
    rw [(suffix_eq_nil_iff bytes).mpr (Nat.le_of_not_lt hge)]
    rfl

/-- A search with a cursor through any text never is out of range, and comes to the same as without
a cursor. -/
theorem find_eq (form : Form) (text : String) : find form text = .ok (find? form text) := by
  rw [find, search_eq (ofText text) (scan_follows _ form) (Nat.zero_le _), Option.map_map]
  rfl

theorem wholeText_eq (text : String) : wholeText text = .ok (Expression.ofText? text) := by
  obtain ⟨result, hrun, hagrees⟩ := scanExpression_follows (ofText text) 0 (Nat.zero_le _)
  rw [wholeText, hrun, Expression.ofText?, Spelling.ofText?]
  change Agrees _ _ result (readExpression? (byteSymbols text)) at hagrees
  generalize readExpression? (byteSymbols text) = read at hagrees ⊢
  cases hagrees with
  | nothing => rfl
  | @found e s position hvalue hwithin =>
    show Except.ok (if position = (ofText text).length then some e else none) = _
    by_cases hend : position = (ofText text).length
    · -- at the end of the bytes, the reader has no symbols left
      rw [if_pos hend, (suffix_eq_nil_iff _).mpr (Nat.le_of_eq hend.symm), ← hvalue]
      rfl
    · have hlt : position < (ofText text).length := Nat.lt_of_le_of_ne hwithin hend
      rw [if_neg hend, suffix_of_lt _ hlt]
      rfl

end Cursor

end ChatDice
