/-
Actions are scanned like plain speech.

What a person says in an action travels in a wrapper, whose closing mark may be missing. No character
of the wrapper is of use to dice notation. So scanning finds the same with it and without it, whatever
is said: it may end in digits or in a sign, in marks of its own, or be an action itself.

* **`Request.ofMention?_of_between`** — characters without a use at both ends of a text do not
  change what it asks for;
* **`Message.exists_wrapper`**, **`rollMention_body`** — the body of a message is its text without
  such characters, so both are scanned with the same result;
* **`Settings.handle_action`** — an action is answered as the same text said plainly, and leaves the
  source as that does.
-/
import ChatDice.Proofs.Chat.Dispatch
import ChatDice.Proofs.Notation.Surrounded

namespace ChatDice

open RollM

theorem stripEnding?_eq_some_iff {ending text rest : String} :
    stripEnding? ending text = some rest ↔ rest ++ ending = text := by
  simp only [stripEnding?, Option.map_eq_some_iff, List.isSuffixOf?_eq_some_iff_append_eq]
  constructor
  · rintro ⟨chars, hchars, rfl⟩
    rw [← String.toList_inj, String.toList_append, String.toList_ofList, hchars]
  · rintro rfl
    exact ⟨rest.toList, String.toList_append.symm, String.ofList_toList⟩

/-! ### Wrappers -/

theorem ofChar_of_mem_actionStart : ∀ c ∈ actionStart.toList, Symbol.ofChar c = .other := by
  have hall : actionStart.toList.all (Symbol.ofChar · = .other) := by decide
  exact fun c hc => of_decide_eq_true (List.all_eq_true.mp hall c hc)

theorem ofChar_of_mem_actionEnd : ∀ c ∈ actionEnd.toList, Symbol.ofChar c = .other := by
  have hall : actionEnd.toList.all (Symbol.ofChar · = .other) := by decide
  exact fun c hc => of_decide_eq_true (List.all_eq_true.mp hall c hc)

/-- What surrounds the body of a message has no use in dice notation. -/
theorem Message.exists_wrapper (m : Message) :
    ∃ front back : List Char, m.text.toList = front ++ m.body.toList ++ back ∧
      (∀ c ∈ front, Symbol.ofChar c = .other) ∧ ∀ c ∈ back, Symbol.ofChar c = .other := by
  rw [body]
  cases hstart : stripStart? actionStart m.text with
  | none => exact ⟨[], [], by simp, nofun, nofun⟩
  | some action =>
    rw [← stripStart?_eq_some_iff.mp hstart]
    dsimp only
    cases hend : stripEnding? actionEnd action with
    | none =>
      refine ⟨actionStart.toList, [], ?_, ofChar_of_mem_actionStart, nofun⟩
      rw [String.toList_append, List.append_nil]
      rfl
    | some said =>
      rw [← stripEnding?_eq_some_iff.mp hend]
      refine ⟨actionStart.toList, actionEnd.toList, ?_, ofChar_of_mem_actionStart,
        ofChar_of_mem_actionEnd⟩
      rw [String.toList_append, String.toList_append, List.append_assoc]
      rfl

/-! ### Scanning -/

theorem Request.ofMention?_of_between {text inner : String} {front back : List Char}
    (h : text.toList = front ++ inner.toList ++ back)
    (hfront : ∀ c ∈ front, Symbol.ofChar c = .other)
    (hback : ∀ c ∈ back, Symbol.ofChar c = .other) : ofMention? text = ofMention? inner := by
  have hfind (form : Form) : find? form text = find? form inner :=
    find?_of_between form h hfront hback
  simp only [ofMention?, ofFirst?, hfind]

theorem Request.ofMention?_body (m : Message) : ofMention? m.body = ofMention? m.text := by
  obtain ⟨front, back, htext, hfront, hback⟩ := m.exists_wrapper
  exact (ofMention?_of_between htext hfront hback).symm

/-- A text in which something is said as an action. -/
inductive IsAction (speech : String) : String → Prop
  | closed : IsAction speech ("\x01ACTION " ++ speech ++ "\x01")
  | unclosed : IsAction speech ("\x01ACTION " ++ speech)

theorem Request.ofMention?_of_isAction {speech text : String} (h : IsAction speech text) :
    ofMention? text = ofMention? speech := by
  cases h with
  | closed =>
    refine ofMention?_of_between ?_ ofChar_of_mem_actionStart ofChar_of_mem_actionEnd
    rw [String.toList_append, String.toList_append]
    rfl
  | unclosed =>
    have hnothing : ∀ c ∈ ([] : List Char), Symbol.ofChar c = .other := nofun
    refine ofMention?_of_between ?_ ofChar_of_mem_actionStart hnothing
    rw [String.toList_append, List.append_nil]
    rfl

variable {G : Type} [WordSource G]

/-- What comes of free text depends on what it asks for. -/
theorem rollMention_congr {text text' : String}
    (h : Request.ofMention? text = Request.ofMention? text') (enabled : Bool) :
    (rollMention text enabled : RollM G _) = rollMention text' enabled := by
  rw [rollMention, rollMention, h]

theorem rollMention_body (m : Message) (enabled : Bool) :
    (rollMention m.body enabled : RollM G _) = rollMention m.text enabled :=
  rollMention_congr (Request.ofMention?_body m) enabled

/-! ### Answers -/

/-- Free text in a message is answered by its text as by its body. -/
theorem Settings.exec_handle_eq_text {settings : Settings} {m : Message}
    (h : ∀ argument, ¬ settings.Commands m.text argument) (source : G) :
    exec (settings.handle m) source =
      ((exec (rollMention m.text (settings.switch m)) source).1.map
          (Option.map fun v => .message v.text),
        (exec (rollMention m.text (settings.switch m)) source).2) := by
  rw [exec_handle_of_not_commands h, rollMention_body]

/-- An action, with or without its closing mark, is answered as the same text said plainly in the
same conversation, and leaves the source as that does, provided that neither of the two is a command.
The body of any message at all is scanned with the same result as its text. -/
theorem Settings.handle_action (settings : Settings) (source : G) :
    (∀ target speech text, IsAction speech text →
      (∀ argument, ¬ settings.Commands speech argument) →
      (∀ argument, ¬ settings.Commands text argument) →
      exec (settings.handle ⟨target, text⟩) source =
        exec (settings.handle ⟨target, speech⟩) source) ∧
    ∀ (m : Message) (enabled : Bool),
      exec (rollMention m.body enabled) source = exec (rollMention m.text enabled) source := by
  constructor
  · intro target speech text h hspeech htext
    -- the switch is that of the target in both cases
    have hswitch : settings.switch ⟨target, text⟩ = settings.switch ⟨target, speech⟩ := rfl
    have hscan (enabled : Bool) : (rollMention text enabled : RollM G _) = rollMention speech enabled :=
      rollMention_congr (Request.ofMention?_of_isAction h) enabled
    rw [exec_handle_eq_text htext, exec_handle_eq_text hspeech, hswitch, hscan]
  · intro m enabled
    rw [rollMention_body]

/-- An action within an action, with a sign and a mark at the end. -/
theorem Settings.handle_action_nested :
    let settings : Settings := ⟨"!", ⟨false, true, []⟩, none⟩
    let source : Script := ⟨#[0xffffffff, 0], by decide, 0⟩
    let speech := "\x01ACTION deals 2d6+\x01\x01"
    let text := "\x01ACTION \x01ACTION deals 2d6+\x01\x01\x01"
    IsAction speech text ∧ (∀ argument, ¬ settings.Commands speech argument) ∧
      (∀ argument, ¬ settings.Commands text argument) ∧
      (exec (settings.handle ⟨"bob", speech⟩) source).1 = .ok (some (.message "[2d6] 7")) ∧
      exec (settings.handle ⟨"bob", text⟩) source = exec (settings.handle ⟨"bob", speech⟩) source := by
  intro settings source speech text
  have haction : IsAction speech text := .closed
  have hspeech : ∀ argument, ¬ settings.Commands speech argument :=
    commandArgument?_eq_none_iff.mp (by decide)
  have htext : ∀ argument, ¬ settings.Commands text argument :=
    commandArgument?_eq_none_iff.mp (by decide)
  exact ⟨haction, hspeech, htext, by decide +kernel,
    (settings.handle_action source).1 _ _ _ haction hspeech htext⟩

end ChatDice
