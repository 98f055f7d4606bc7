/-
The roll command and free text agree on what they both understand.

The argument of a command is anchored: apart from blanks around it, it has to be one expression.
Free text is searched, first for a roll set and then for an expression. On an argument that a
command accepts both come to the same:

* **`Request.ofMention?_of_ofCommand_eq_ok`** — no roll set hides in such a text, and the first
  expression in it is the whole of it;
* **`Request.ofMention?_of_outOfBounds`** — what a command refuses because of a limit is passed
  over in silence;
* **`rollMention_agrees_rollCommand`** — so the same words are taken and the same totals reported;
* **`Request.ofCommand_text`**, **`Request.ofMention?_text`** — what is within the limits is asked for
  by its canonical text.
-/
import ChatDice.Proofs.Notation.RoundTrip
import ChatDice.Proofs.Notation.Surrounded
import ChatDice.Proofs.Roll.Request
import ChatDice.Random.Script

namespace ChatDice

open RollM

namespace Request

/-- A text that spells an expression apart from the blanks around it asks for that expression,
provided that it is within the limits. -/
theorem ofMention?_of_ofText?_trim {text : String} {e : Expression}
    (h : Expression.ofText? (trim text) = some e) :
    ofMention? text = if e.violation?.isNone then some (.single e) else none := by
  have hset : ofFirst? .repeated text = none := by
    rw [ofFirst?, find?_repeated_of_ofText?_trim h, Option.bind_none]
  rw [ofMention?, hset, Option.none_or, ofFirst?, find?_single_of_ofText?_trim h,
    Option.bind_some]
  rfl

theorem ofMention?_of_ofCommand_eq_ok {text : String} {request : Request}
    (h : ofCommand text = .ok request) : ofMention? text = some request := by
  obtain ⟨e, he, hlimits, rfl⟩ := ofCommand_eq_ok_iff.mp h
  simp [ofMention?_of_ofText?_trim he, hlimits]

theorem ofMention?_of_outOfBounds {text : String} {violation : Violation}
    (h : ofCommand text = .error (.outOfBounds violation)) : ofMention? text = none := by
  rcases ofCommand_eq_error_iff.mp h with ⟨_, husage⟩ | ⟨e, v, he, hv, _⟩
  · exact nomatch husage
  · simp [ofMention?_of_ofText?_trim he, hv]

end Request

variable {G : Type} [WordSource G]

/-- What a command rolls, free text rolls as well, from the same source and with the same words.
What a command refuses because of a limit, free text leaves alone, and the source untouched. -/
theorem rollMention_agrees_rollCommand (text : String) (source : G) :
    (∀ v source', (rollCommand text).exec source = (.ok (.ok v), source') →
      (rollMention text true).exec source = (.ok (some v), source')) ∧
    ∀ violation source',
      (rollCommand text).exec source = (.ok (.error (.outOfBounds violation)), source') →
        (rollMention text true).exec source = (.ok none, source) := by
  rw [exec_rollMention, if_pos rfl]
  constructor
  · intro v source' h
    obtain ⟨request, hcommand, hroll⟩ := exec_rollCommand_eq_ok_iff.mp h
    rw [Request.ofMention?_of_ofCommand_eq_ok hcommand]
    dsimp only
    rw [hroll]
    rfl
  · intro violation source' h
    obtain ⟨hcommand, _⟩ := exec_rollCommand_eq_error_iff.mp h
    rw [Request.ofMention?_of_outOfBounds hcommand]

/-- Two dice between blanks of different kinds, and too many dice. -/
theorem rollMention_agrees_between_blanks :
    let source (used : Nat) : Script := ⟨#[0xffffffff, 0], by decide, used⟩
    let rolled : Evaluation := .single ⟨2, 6, 1⟩ 8
    ((rollCommand "\u00a02d6+1 ").exec (source 0) = (.ok (.ok rolled), source 2) ∧
      (rollMention "\u00a02d6+1 " true).exec (source 0) = (.ok (some rolled), source 2)) ∧
    (rollCommand " 2000d6").exec (source 0) =
      (.ok (.error (.outOfBounds .tooManyDice)), source 0) ∧
    (rollMention " 2000d6" true).exec (source 0) = (.ok none, source 0) := by
  refine ⟨⟨rfl, ?_⟩, rfl, ?_⟩
  · exact (rollMention_agrees_rollCommand _ _).1 _ _ rfl
  · exact (rollMention_agrees_rollCommand _ _).2 _ _ rfl

/-! ### Canonical texts as requests -/

theorem Expression.trim_text (e : Expression) : trim e.text = e.text := by
  obtain ⟨s, hchars, _⟩ := e.exists_spelling
  refine trim_eq_self fun c hc => ?_
  rw [← hchars] at hc
  have hne := Form.single.ofChar_ne_other s c hc
  cases hblank : isBlank c with
  | false => rfl
  | true => exact absurd (ofChar_of_isBlank hblank) hne

namespace Request

theorem ofCommand_text {e : Expression} (h : e.violation? = none) :
    ofCommand e.text = .ok (.single e) := by
  refine ofCommand_eq_ok_iff.mpr ⟨e, ?_, h, rfl⟩
  rw [e.trim_text]
  exact e.ofText?_text

theorem ofMention?_text {s : RollSet} (h : s.violation? = none) :
    ofMention? s.text = some (.repeated s) := by
  obtain ⟨spelling, hchars, hdenotes⟩ := s.exists_spelling
  have hset : ofFirst? .repeated s.text = some (.repeated s) :=
    ofFirst?_eq_some_iff.mpr ⟨s, find?_of_chars_eq hchars hdenotes, h, rfl⟩
  rw [ofMention?, hset, Option.some_or]

end Request

end ChatDice
