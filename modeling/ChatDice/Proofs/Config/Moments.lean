/-
Dates and times in their normal form.

A moment that is written in its normal form is read back as it was, so two moments never have the same
normal form. Nothing is said here of the other forms in which a moment may be written.

* **`readFixed?_paddedChars`** — numbers of a fixed width;
* **`readDecimals_decimalChars`** — the decimals of a second, which are written without zeros at their
  end and read with them;
* **`readDate?_chars`**, **`readTime?_chars`**, **`readOffset?_chars`** — the parts of a moment;
* **`readMoment?_chars`**, **`Moment.chars_injective`** — the whole moment.
-/
import ChatDice.Config.Toml.Moment
import Mathlib.Algebra.Group.Nat.Defs
import Mathlib.Data.List.DropRight
import Mathlib.Data.List.TakeDrop

namespace ChatDice.Toml

/-! ### Numbers of a fixed width -/

theorem readFixed?_append {width : Nat} {digits : List Char} (hlength : digits.length = width)
    (hdigits : ∀ c ∈ digits, c.isDigit) (rest : List Char) :
    readFixed? width (digits ++ rest) = some (decimalValue digits, rest) := by
  rw [readFixed?, List.take_left' hlength, List.drop_left' hlength]
  exact if_pos ⟨hlength, List.all_eq_true.mpr hdigits⟩

section

variable {width n : Nat}

theorem length_paddedChars (hwidth : 0 < width) (h : n < 10 ^ width) :
    (paddedChars width n).length = width := by
  have hlength : (Nat.toDigits 10 n).length ≤ width :=
    (Nat.length_toDigits_le_iff (by decide) hwidth).mpr h
  rw [paddedChars, List.length_leftpad]
  omega

theorem isDigit_of_mem_paddedChars {c : Char} (h : c ∈ paddedChars width n) : c.isDigit := by
  rw [paddedChars, List.leftpad, List.mem_append] at h
  rcases h with hzero | hdigit
  · rw [List.eq_of_mem_replicate hzero]
    rfl
  · exact Nat.isDigit_of_mem_toDigits (by decide) (by decide) hdigit

theorem decimalValue_paddedChars : decimalValue (paddedChars width n) = n := by
  rw [decimalValue, paddedChars, List.leftpad, Nat.ofDigitChars_append,
    Nat.ofDigitChars_replicate_zero, Nat.mul_zero, Nat.ofDigitChars_ten_toDigits]

theorem readFixed?_paddedChars (hwidth : 0 < width) (h : n < 10 ^ width) (rest : List Char) :
    readFixed? width (paddedChars width n ++ rest) = some (n, rest) := by
  rw [readFixed?_append (length_paddedChars hwidth h) fun _ => isDigit_of_mem_paddedChars,
    decimalValue_paddedChars]

theorem readFixed?_two (h : n < 100) (rest : List Char) :
    readFixed? 2 (paddedChars 2 n ++ rest) = some (n, rest) :=
  readFixed?_paddedChars (by decide) h rest

end

/-! ### Decimals -/

theorem dropLastZeros_eq_rdropWhile (digits : List Char) :
    dropLastZeros digits = digits.rdropWhile (· == '0') := rfl

/-- The zeros that are dropped come back when the digits are filled up. -/
theorem rightpad_dropLastZeros {width : Nat} {digits : List Char} (h : digits.length = width) :
    (dropLastZeros digits).rightpad width '0' = digits := by
  have hsplit := List.rdropWhile_append_rtakeWhile (p := (· == '0')) (l := digits)
  have hzeros : digits.rtakeWhile (· == '0') =
      List.replicate (digits.rtakeWhile (· == '0')).length '0' := by
    refine List.eq_replicate_of_mem fun c hc => ?_
    simpa using List.mem_rtakeWhile_imp hc
  have hlength := congrArg List.length hsplit
  rw [List.length_append, h] at hlength
  rw [List.rightpad, dropLastZeros_eq_rdropWhile]
  rwa [hzeros, show (digits.rtakeWhile (· == '0')).length =
    width - (digits.rdropWhile (· == '0')).length by omega] at hsplit

theorem mem_of_mem_dropLastZeros {digits : List Char} {c : Char} (h : c ∈ dropLastZeros digits) :
    c ∈ digits :=
  (List.rdropWhile_prefix (p := (· == '0')) digits).subset h

theorem length_dropLastZeros_le (digits : List Char) :
    (dropLastZeros digits).length ≤ digits.length :=
  (List.rdropWhile_prefix (p := (· == '0')) digits).length_le

/-- Digits that are all dropped write zero. -/
theorem dropLastZeros_paddedChars_ne_nil {width n : Nat} (h : n ≠ 0) :
    dropLastZeros (paddedChars width n) ≠ [] := by
  intro hnil
  rw [dropLastZeros_eq_rdropWhile, List.rdropWhile_eq_nil_iff] at hnil
  have hzeros : paddedChars width n = List.replicate (paddedChars width n).length '0' :=
    List.eq_replicate_of_mem fun c hc => by simpa using hnil c hc
  have hvalue : decimalValue (paddedChars width n) = n := decimalValue_paddedChars
  rw [hzeros, decimalValue, Nat.ofDigitChars_replicate_zero] at hvalue
  omega

/-- What follows a time is not taken for its decimals. -/
def EndsDecimals (rest : List Char) : Prop :=
  ∀ c ∈ rest.head?, c.isDigit = false ∧ c ≠ '.'

theorem spanDecimal_append {digits rest : List Char} (hdigits : ∀ c ∈ digits, c.isDigit)
    (hrest : EndsDecimals rest) : spanDecimal (digits ++ rest) = (digits, rest) := by
  rw [spanDecimal, List.span_eq_takeWhile_dropWhile, List.takeWhile_append_of_pos hdigits,
    List.dropWhile_append_of_pos hdigits]
  cases rest with
  | nil => simp
  | cons c rest =>
    have hc := (hrest c rfl).1
    simp [hc]

theorem readDecimals_decimalChars {n : Nat} (h : n < 1000000000) {rest : List Char}
    (hrest : EndsDecimals rest) : readDecimals (decimalChars n ++ rest) = (n, rest) := by
  by_cases hn : n = 0
  · subst hn
    cases rest with
    | nil => rfl
    | cons c rest =>
      have hpoint : splitPoint (c :: rest) = ([], c :: rest) := by
        unfold splitPoint
        split
        · next heq => exact absurd (List.cons.inj heq).1 (hrest c rfl).2
        · rfl
      rw [decimalChars, if_pos rfl, List.nil_append, readDecimals, hpoint]
  · have hlength : (paddedChars 9 n).length = 9 := length_paddedChars (by decide) h
    have hsplit : splitPoint (decimalChars n ++ rest) = (dropLastZeros (paddedChars 9 n), rest) := by
      rw [decimalChars, if_neg hn, List.cons_append, splitPoint]
      exact spanDecimal_append
        (fun c hc => isDigit_of_mem_paddedChars (mem_of_mem_dropLastZeros hc)) hrest
    have hle := length_dropLastZeros_le (paddedChars 9 n)
    rw [hlength] at hle
    rw [readDecimals, hsplit]
    split
    · next heq => exact absurd (Prod.mk.inj heq).1 (dropLastZeros_paddedChars_ne_nil hn)
    · next heq =>
      obtain ⟨rfl, rfl⟩ := Prod.mk.inj heq
      rw [List.take_of_length_le hle, rightpad_dropLastZeros hlength, decimalValue_paddedChars]

/-! ### Parts of a moment -/

theorem skipOne?_cons_of_mem {allowed : List Char} {c : Char} (h : c ∈ allowed)
    (rest : List Char) : skipOne? allowed (c :: rest) = some rest :=
  if_pos h

theorem readDate?_chars (d : Date) (rest : List Char) :
    readDate? (d.chars ++ rest) = some (d, rest) := by
  have hmonth := d.month_mem
  have hday := d.day_mem
  have hdays : daysInMonth d.year d.month ≤ 31 := by
    unfold daysInMonth
    split
    · split <;> omega
    all_goals omega
  have hyear (rest : List Char) :
      readFixed? 4 (paddedChars 4 d.year ++ rest) = some (d.year, rest) :=
    readFixed?_paddedChars (by decide) d.year_lt rest
  simp only [readDate?, Date.chars, List.append_assoc, List.cons_append, hyear,
    readFixed?_two (show d.month < 100 by omega), readFixed?_two (show d.day < 100 by omega),
    skipOne?_cons_of_mem (List.mem_singleton_self _), Option.bind_eq_bind, Option.bind_some]
  rw [dif_pos ⟨d.year_lt, hmonth, hday⟩]
  rfl

theorem readTime?_chars (t : Time) {rest : List Char} (hrest : EndsDecimals rest) :
    readTime? (t.chars ++ rest) = some (t, rest) := by
  have hhour := t.hour_lt
  have hminute := t.minute_lt
  have hsecond := t.second_le
  simp only [readTime?, Time.chars, List.append_assoc, List.cons_append,
    readFixed?_two (show t.hour < 100 by omega), readFixed?_two (show t.minute < 100 by omega),
    readFixed?_two (show t.second < 100 by omega), skipOne?_cons_of_mem (List.mem_singleton_self _),
    Option.bind_eq_bind, Option.bind_some, readDecimals_decimalChars t.nanosecond_lt hrest]
  rw [dif_pos ⟨hhour, hminute, hsecond, t.nanosecond_lt⟩]
  rfl

theorem readShift?_chars {minutes : Int} (hlt : minutes.natAbs < 24 * 60) {isBehind : Bool}
    (hsign : (if isBehind then -(minutes.natAbs : Int) else minutes.natAbs) = minutes) :
    readShift? isBehind
        (paddedChars 2 (minutes.natAbs / 60) ++ ':' :: paddedChars 2 (minutes.natAbs % 60)) =
      some (.shift minutes hlt, []) := by
  have hhours : minutes.natAbs / 60 < 24 := by omega
  have hminutes : minutes.natAbs % 60 < 60 := by omega
  have hlast := readFixed?_two (show minutes.natAbs % 60 < 100 by omega) []
  rw [List.append_nil] at hlast
  simp only [readShift?, readFixed?_two (show minutes.natAbs / 60 < 100 by omega), hlast,
    skipOne?_cons_of_mem (List.mem_singleton_self _), Option.bind_eq_bind, Option.bind_some]
  rw [dif_pos ⟨hhours, hminutes⟩]
  simp only [Nat.div_add_mod, hsign]
  rfl

theorem readOffset?_chars (offset : Offset) : readOffset? offset.chars = some (offset, []) := by
  cases offset with
  | universal => rfl
  | shift minutes hlt =>
    by_cases hneg : minutes < 0
    · rw [Offset.chars, if_pos hneg, readOffset?, if_neg (by decide), if_neg (by decide),
        if_pos rfl]
      exact readShift?_chars hlt (show -(minutes.natAbs : Int) = minutes by omega)
    · rw [Offset.chars, if_neg hneg, readOffset?, if_neg (by decide), if_pos rfl]
      exact readShift?_chars hlt (show (minutes.natAbs : Int) = minutes by omega)

theorem endsDecimals_chars (offset : Offset) : EndsDecimals offset.chars := by
  cases offset with
  | universal =>
    rintro c ⟨⟩
    decide
  | shift minutes hlt =>
    rintro c ⟨⟩
    split <;> decide

/-! ### Moments -/

/-- A time has a colon where a date has its third digit. -/
theorem readDate?_time_chars (t : Time) : readDate? t.chars = none := by
  have hlength : (paddedChars 2 t.hour).length = 2 :=
    length_paddedChars (by decide) (t.hour_lt.trans (by decide))
  have hcolon : ':' ∈ t.chars.take 4 := by
    rw [Time.chars, List.take_append, hlength]
    exact List.mem_append_right _ List.mem_cons_self
  have hread : readFixed? 4 t.chars = none := by
    refine if_neg fun h => ?_
    have hdigit := List.all_eq_true.mp h.2 ':' hcolon
    exact absurd hdigit (by decide)
  rw [readDate?, hread]
  rfl

/-- What is written in normal form is read as it was. -/
theorem readMoment?_chars (m : Moment) : readMoment? m.chars = some (m, []) := by
  have hend : EndsDecimals [] := fun _ h => nomatch h
  cases m with
  | date d =>
    have hread := readDate?_chars d []
    rw [List.append_nil] at hread
    rw [readMoment?, Moment.chars, hread]
    rfl
  | time t =>
    have hread := readTime?_chars t hend
    rw [List.append_nil] at hread
    rw [readMoment?, Moment.chars, readDate?_time_chars, hread]
    rfl
  | both d t offset? =>
    cases offset? with
    | none =>
      have hread := readTime?_chars t hend
      rw [List.append_nil] at hread
      rw [readMoment?, Moment.chars, readDate?_chars]
      simp only [skipOne?_cons_of_mem (List.mem_cons_self), Option.bind_some, hread]
      rfl
    | some offset =>
      rw [readMoment?, Moment.chars, readDate?_chars]
      simp only [skipOne?_cons_of_mem (List.mem_cons_self), Option.bind_some,
        readTime?_chars t (endsDecimals_chars offset), readOffset?_chars]

example : (readMoment? "1979-05-27 07:32:00.1200-07:00".toList).map (fun r => r.1.chars) =
    some "1979-05-27T07:32:00.12-07:00".toList := by
  decide +kernel

theorem Moment.chars_injective : Function.Injective Moment.chars := by
  intro m m' h
  have hread := readMoment?_chars m
  rw [h, readMoment?_chars] at hread
  cases hread
  rfl

end ChatDice.Toml
