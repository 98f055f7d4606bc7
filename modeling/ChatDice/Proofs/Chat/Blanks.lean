/-
White space around the argument of a roll command.

Blanks at the ends of an argument are taken away before it is read, and so are those that set it off
from the word `roll`: only what stands between them counts. A blank inside stays, and since no written
form holds one, the command is refused.

* **`AllBlank`**, **`rollCommand_between_blanks`** — a text between blanks is rolled as without them;
* **`mem_trimChars_append_cons`**, **`Request.ofCommand_of_inner_blank`** — blanks inside are not taken
  away;
* **`Settings.commands_set_off`** — blanks set the argument of a message off, and are part of it;
* **`Settings.roll_between_blanks`** — what comes of the command in all these forms;
* **`Settings.converse_of_respaced`** — conversations that differ in the blanks of their commands.
-/
import Mathlib.Data.List.TakeWhile
import ChatDice.Proofs.Chat.Switches
import ChatDice.Proofs.Notation.Surrounded

namespace ChatDice

open RollM

/-- A text of white space only. -/
def AllBlank (text : String) : Prop :=
  ∀ c ∈ text.toList, isBlank c

instance (text : String) : Decidable (AllBlank text) :=
  decidable_of_iff (text.toList.all isBlank) List.all_eq_true

/-! ### Blanks at the ends -/

theorem trim_between_blanks {u v : String} (hu : AllBlank u) (hv : AllBlank v) (text : String) :
    trim (u ++ text ++ v) = trim text :=
  trim_of_between (by rw [String.toList_append, String.toList_append]) hu hv

variable {G : Type} [WordSource G]

theorem rollCommand_between_blanks {u v : String} (hu : AllBlank u) (hv : AllBlank v)
    (text : String) : (rollCommand (u ++ text ++ v) : RollM G _) = rollCommand text := by
  rw [rollCommand, rollCommand, Request.ofCommand, Request.ofCommand, trim_between_blanks hu hv]

theorem commandReply_between_blanks {u v : String} (hu : AllBlank u) (hv : AllBlank v)
    (text : String) : (commandReply (u ++ text ++ v) : RollM G _) = commandReply text := by
  rw [commandReply, commandReply, rollCommand_between_blanks hu hv]

/-! ### Blanks inside -/

/-- A text that is not blank stops the blanks in front of it. -/
theorem dropWhile_append_of_not_blank {front : List Char} (h : ∃ d ∈ front, ¬ isBlank d)
    (cs : List Char) : (front ++ cs).dropWhile isBlank = front.dropWhile isBlank ++ cs := by
  have hkept : ¬ (front.dropWhile isBlank).isEmpty := by
    rw [List.isEmpty_iff, List.dropWhile_eq_nil_iff]
    push Not
    exact h
  rw [List.dropWhile_append, if_neg hkept]

theorem trimRight_append_of_not_blank {back : List Char} (h : ∃ d ∈ back, ¬ isBlank d)
    (cs : List Char) : trimRight (cs ++ back) = cs ++ trimRight back := by
  obtain ⟨d, hd, hblank⟩ := h
  rw [trimRight, List.reverse_append,
    dropWhile_append_of_not_blank ⟨d, List.mem_reverse.mpr hd, hblank⟩, List.reverse_append,
    List.reverse_reverse, trimRight]

/-- Between characters that are not blank, nothing is taken away. -/
theorem mem_trimChars_append_cons {front back : List Char} (hfront : ∃ d ∈ front, ¬ isBlank d)
    (hback : ∃ d ∈ back, ¬ isBlank d) (c : Char) : c ∈ trimChars (front ++ c :: back) := by
  rw [trimChars, dropWhile_append_of_not_blank hfront, List.append_cons,
    trimRight_append_of_not_blank hback]
  simp

/-- No written form holds a blank. -/
theorem Expression.ofText?_eq_none_of_blank {text : String} {c : Char} (hc : c ∈ text.toList)
    (hblank : isBlank c) : Expression.ofText? text = none := by
  rw [Option.eq_none_iff_forall_ne_some]
  intro e he
  obtain ⟨s, hchars, -⟩ := Expression.ofText?_eq_some_iff.mp he
  rw [← hchars] at hc
  exact Form.single.ofChar_ne_other s c hc (ofChar_of_isBlank hblank)

theorem Request.ofCommand_of_inner_blank {text : String} {front back : List Char} {c : Char}
    (htext : text.toList = front ++ c :: back) (hblank : isBlank c)
    (hfront : ∃ d ∈ front, ¬ isBlank d) (hback : ∃ d ∈ back, ¬ isBlank d) :
    Request.ofCommand text = .error .usage := by
  have hmem : c ∈ (trim text).toList := by
    rw [trim, String.toList_ofList, htext]
    exact mem_trimChars_append_cons hfront hback c
  rw [Request.ofCommand, Expression.ofText?_eq_none_of_blank hmem hblank]

namespace Settings

/-! ### Commands in messages -/

theorem commands_set_off (settings : Settings) {w : String} (hw : AllBlank w) (hne : w ≠ "")
    (text v : String) :
    settings.Commands (settings.commandPrefix ++ "roll" ++ w ++ text ++ v) (w ++ text ++ v) where
  text_eq := by simp only [String.append_assoc]
  set_off c hc := by
    rw [String.toList_append, String.toList_append] at hc
    cases h : w.toList with
    | nil => exact absurd (String.toList_eq_nil_iff.mp h) hne
    | cons first rest =>
      rw [h] at hc
      obtain rfl : first = c := by simpa using hc
      exact hw first (h ▸ List.mem_cons_self)

/-- A text between blanks is rolled as without them, and so is answered a message that sets it off by
blanks from the command, whatever its target is. Either way the source is left as the bare text leaves
it. Blanks at the ends of the text itself may be any, but with one inside the command is refused. -/
theorem roll_between_blanks (settings : Settings) {u v : String} (hu : AllBlank u)
    (hv : AllBlank v) (text : String) (source : G) :
    exec (rollCommand (u ++ text ++ v)) source = exec (rollCommand text) source ∧
    exec (commandReply (u ++ text ++ v)) source = exec (commandReply text) source ∧
    (∀ w, AllBlank w → w ≠ "" → ∀ target,
      exec (settings.handle ⟨target, settings.commandPrefix ++ "roll" ++ w ++ text ++ v⟩) source =
        ((exec (commandReply text) source).1.map some, (exec (commandReply text) source).2)) ∧
    ∀ front c back, text.toList = front ++ c :: back → isBlank c → (∃ d ∈ front, ¬ isBlank d) →
      (∃ d ∈ back, ¬ isBlank d) →
      exec (rollCommand (u ++ text ++ v)) source = (.ok (.error .usage), source) := by
  have hroll := rollCommand_between_blanks (G := G) hu hv text
  refine ⟨by rw [hroll], by rw [commandReply_between_blanks hu hv], ?_, ?_⟩
  · intro w hw hne target
    rw [exec_handle_of_commands (settings.commands_set_off hw hne text v),
      commandReply_between_blanks hw hv]
  · intro front c back htext hblank hfront hback
    rw [hroll, exec_rollCommand, Request.ofCommand_of_inner_blank htext hblank hfront hback]

/-- Blanks of one, two and three bytes around a text that has blanks of its own at both ends, and a
text with a blank inside. -/
theorem roll_between_blanks_of_all_widths :
    let settings : Settings := ⟨"roll ", ⟨true, false, []⟩, none⟩
    let source : Script := ⟨#[0xffffffff, 0], by decide, 0⟩
    (AllBlank "\u3000\t" ∧ AllBlank "\u0085 \u2029" ∧ AllBlank "\u00a0\u3000" ∧ "\u00a0\u3000" ≠ "") ∧
    (exec (settings.handle ⟨"#inn", "roll roll\u00a0\u3000 2d6+1\n\u0085 \u2029"⟩) source).1 =
      .ok (some (.message "[2d6+1] 8")) ∧
    exec (rollCommand "\u3000\t2d6 +1\u0085 \u2029") source = (.ok (.error .usage), source) := by
  intro settings source
  have hu : AllBlank "\u3000\t" := by decide
  have hv : AllBlank "\u0085 \u2029" := by decide
  have hw : AllBlank "\u00a0\u3000" := by decide
  refine ⟨⟨hu, hv, hw, by decide⟩, ?_, ?_⟩
  · have hset := (settings.roll_between_blanks hu hv " 2d6+1\n" source).2.2.1 _ hw (by decide) "#inn"
    refine (congrArg Prod.fst hset).trans ?_
    decide +kernel
  · exact (settings.roll_between_blanks hu hv "2d6 +1" source).2.2.2 ['2', 'd', '6'] ' ' ['+', '1']
      (by decide) (by decide) ⟨'2', by decide, by decide⟩ ⟨'+', by decide, by decide⟩

/-! ### Conversations -/

/-- The calls that give the roll command with a text between blanks. -/
inductive RollsText (settings : Settings) (text : String) : Call → Prop
  | direct {u v : String} (hu : AllBlank u) (hv : AllBlank v) :
      RollsText settings text (.roll (u ++ text ++ v))
  | message (target : String) {w v : String} (hw : AllBlank w) (hne : w ≠ "") (hv : AllBlank v) :
      RollsText settings text
        (.message ⟨target, settings.commandPrefix ++ "roll" ++ w ++ text ++ v⟩)

theorem RollsText.answer_eq {settings : Settings} {text : String} {call : Call}
    (h : settings.RollsText text call) :
    (settings.answer call : RollM G _) = settings.answer (.roll text) := by
  have hdirect {u v : String} (hu : AllBlank u) (hv : AllBlank v) :
      (settings.answer (.roll (u ++ text ++ v)) : RollM G _) = settings.answer (.roll text) := by
    rw [answer, answer, commandReply_between_blanks hu hv]
  cases h with
  | direct hu hv => exact hdirect hu hv
  | message target hw hne hv =>
    exact (handle_eq_of_commands (settings.commands_set_off hw hne text _)).trans (hdirect hw hv)

/-- Conversations are the same if their calls differ in nothing but the form of the command and the
blanks around what it rolls. -/
theorem converse_of_respaced (settings : Settings) {calls calls' : List Call}
    (h : List.Forall₂ (fun call call' => call = call' ∨
      ∃ text, settings.RollsText text call ∧ settings.RollsText text call') calls calls')
    (source : G) : settings.converse calls source = settings.converse calls' source := by
  refine converse_congr (h.imp fun call call' hcalls => ?_) source
  rcases hcalls with rfl | ⟨text, hcall, hcall'⟩
  · rfl
  · rw [hcall.answer_eq, hcall'.answer_eq]

end Settings

end ChatDice
