/-
Which messages are commands, and what answers a message.

A text gives the roll command if the prefix and the word `roll` stand at its front and white space
sets the argument off, unless nothing follows at all. The prefix may be any text, also one that is
empty, blank or holds the word `roll` itself. A command is answered as if it were given directly.
Every other message is free text, which is scanned where the switch for its origin is on.

* **`Settings.Commands`**, **`Settings.commandArgument?_eq_some_iff`** — what a command is, said by
  the characters of the text;
* **`Settings.switch`**, **`Settings.scans_eq_switch`** — the one switch that counts for a message;
* **`Settings.handle_eq_of_commands`**, **`Settings.exec_handle_of_commands`**,
  **`Settings.exec_handle_of_not_commands`** — the answer to a command, and to free text;
* **`Settings.handle_dispatch`** — both together: the answers end without a fault.
-/
import ChatDice.Proofs.Chat.Replies
import ChatDice.Random.Script

namespace ChatDice

open RollM

theorem stripStart?_eq_some_iff {start text rest : String} :
    stripStart? start text = some rest ↔ start ++ rest = text := by
  simp only [stripStart?, Option.map_eq_some_iff, List.isPrefixOf?_eq_some_iff_append_eq]
  constructor
  · rintro ⟨chars, hchars, rfl⟩
    rw [← String.toList_inj, String.toList_append, String.toList_ofList, hchars]
  · rintro rfl
    exact ⟨rest.toList, String.toList_append.symm, String.ofList_toList⟩

namespace Settings

/-! ### Commands -/

/-- A text gives the roll command: the argument stands behind the prefix and the word `roll`, and it
begins with white space if it is not empty. -/
structure Commands (settings : Settings) (text argument : String) : Prop where
  text_eq : text = settings.commandPrefix ++ "roll" ++ argument
  set_off : ∀ c ∈ argument.toList.head?, isBlank c

theorem commandArgument?_eq_some_iff {settings : Settings} {text argument : String} :
    settings.commandArgument? text = some argument ↔ settings.Commands text argument := by
  simp only [commandArgument?, Option.bind_eq_bind, Option.bind_eq_some_iff,
    stripStart?_eq_some_iff]
  constructor
  · rintro ⟨_, rfl, argument', rfl, h⟩
    split at h
    · next hnil =>
      cases h
      exact ⟨String.append_assoc.symm, by simp [hnil]⟩
    · next c _ hcons =>
      split at h
      · next hblank =>
        cases h
        exact ⟨String.append_assoc.symm, by simpa [hcons] using hblank⟩
      · cases h
  · rintro ⟨rfl, hblank⟩
    refine ⟨_, String.append_assoc.symm, argument, rfl, ?_⟩
    split
    · rfl
    · next c _ hcons =>
      rw [hcons] at hblank
      exact if_pos (hblank c rfl)

theorem commandArgument?_eq_none_iff {settings : Settings} {text : String} :
    settings.commandArgument? text = none ↔ ∀ argument, ¬ settings.Commands text argument := by
  simp only [Option.eq_none_iff_forall_ne_some, ne_eq, commandArgument?_eq_some_iff]

/-! ### Switches -/

/-- The switch for free text in the conversation that a message belongs to: that of the channel, or
the one for conversations with one person. -/
def switch (settings : Settings) (m : Message) : Bool :=
  if isChannel m.target then settings.autoRoll.channelEnabled m.target else settings.autoRoll.direct

theorem scans_eq_switch (settings : Settings) (m : Message) : settings.scans m = settings.switch m := by
  rw [scans, switch, Message.origin]
  cases isChannel m.target <;> rfl

end Settings

/-! ### Answers -/

variable {G : Type} [WordSource G]

/-- The reply to free text is the report of what is rolled. -/
theorem exec_mentionReply?_eq_map (text : String) (enabled : Bool) (source : G) :
    exec (mentionReply? text enabled) source =
      ((exec (rollMention text enabled) source).1.map (Option.map fun v => .message v.text),
        (exec (rollMention text enabled) source).2) := by
  rw [mentionReply?, exec_bind]
  cases exec (rollMention text enabled) source with
  | mk result left =>
    cases result with
    | error fault => rfl
    | ok v? => cases v? <;> rfl

namespace Settings

/-- A message that gives the roll command is the command given directly. -/
theorem handle_eq_of_commands {settings : Settings} {m : Message} {argument : String}
    (h : settings.Commands m.text argument) :
    (settings.handle m : RollM G _) = settings.answer (.roll argument) := by
  rw [handle, commandArgument?_eq_some_iff.mpr h]
  rfl

theorem exec_handle_of_commands {settings : Settings} {m : Message} {argument : String}
    (h : settings.Commands m.text argument) (source : G) :
    exec (settings.handle m) source =
      ((exec (commandReply argument) source).1.map some,
        (exec (commandReply argument) source).2) := by
  rw [handle_eq_of_commands h]
  exact exec_bind_pure (commandReply argument) some source

theorem exec_handle_of_not_commands {settings : Settings} {m : Message}
    (h : ∀ argument, ¬ settings.Commands m.text argument) (source : G) :
    exec (settings.handle m) source =
      ((exec (rollMention m.body (settings.switch m)) source).1.map
          (Option.map fun v => .message v.text),
        (exec (rollMention m.body (settings.switch m)) source).2) := by
  rw [handle, commandArgument?_eq_none_iff.mpr h, scans_eq_switch]
  exact exec_mentionReply?_eq_map m.body (settings.switch m) source

/-- A message that gives the roll command is answered as the command given directly, whatever its
target is and whatever the switches for free text say. Any other message is answered with what comes
of scanning its body where the switch for its origin is on, and never with an error. In both cases
the source is left as the roll leaves it, and no fault comes. -/
theorem handle_dispatch (settings : Settings) (m : Message) (source : G) :
    (∀ argument, settings.Commands m.text argument →
      ∃ reply left, exec (commandReply argument) source = (.ok reply, left) ∧
        exec (settings.handle m) source = (.ok (some reply), left)) ∧
    ((∀ argument, ¬ settings.Commands m.text argument) →
      ∃ v? left, exec (rollMention m.body (settings.switch m)) source = (.ok v?, left) ∧
        exec (settings.handle m) source = (.ok (v?.map fun v => .message v.text), left) ∧
        ∀ text, v?.map (fun v => Reply.message v.text) ≠ some (.error text)) := by
  constructor
  · intro argument h
    obtain ⟨reply, left, hreply, -⟩ := (yields_commandReply argument True).exists_exec source
    refine ⟨reply, left, hreply, ?_⟩
    rw [exec_handle_of_commands h, hreply]
    rfl
  · intro h
    obtain ⟨v?, left, hv, -⟩ :=
      (yields_rollMention m.body (settings.switch m)).exists_exec source
    refine ⟨v?, left, hv, ?_, ?_⟩
    · rw [exec_handle_of_not_commands h, hv]
      rfl
    · intro text
      cases v? with
      | none => nofun
      | some v => nofun

/-- The prefix is the mark of an action. A command behind it is answered in a conversation that is
not scanned; a longer word makes it an action, which is scanned where the switch is on. -/
theorem handle_dispatch_behind_action_mark :
    let settings : Settings := ⟨"\x01ACTION ", ⟨false, true, [("#Den", true)]⟩, none⟩
    let source : Script := ⟨#[0xffffffff, 0], by decide, 0⟩
    let command : Message := ⟨"#inn", "\x01ACTION roll\u00a02d6"⟩
    let action : Message := ⟨"#den", "\x01ACTION rolls 2#1d6\x01"⟩
    (settings.Commands command.text "\u00a02d6" ∧
      ∃ reply left, exec (commandReply "\u00a02d6") source = (.ok reply, left) ∧
        exec (settings.handle command) source = (.ok (some reply), left)) ∧
    (∀ argument, ¬ settings.Commands action.text argument) ∧
      ∃ v? left, exec (rollMention "rolls 2#1d6" true) source = (.ok v?, left) ∧
        exec (settings.handle action) source = (.ok (v?.map fun v => .message v.text), left) ∧
        ∀ text, v?.map (fun v => Reply.message v.text) ≠ some (.error text) := by
  intro settings source command action
  have hcommand : settings.Commands command.text "\u00a02d6" :=
    commandArgument?_eq_some_iff.mp (by decide)
  have haction : ∀ argument, ¬ settings.Commands action.text argument :=
    commandArgument?_eq_none_iff.mp (by decide)
  have hbody : action.body = "rolls 2#1d6" := by decide
  have hswitch : settings.switch action = true := by decide
  have hscanned := (settings.handle_dispatch action source).2 haction
  rw [hbody, hswitch] at hscanned
  exact ⟨⟨hcommand, (settings.handle_dispatch command source).1 _ hcommand⟩, haction, hscanned⟩

end Settings

end ChatDice
