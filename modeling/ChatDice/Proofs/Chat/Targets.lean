/-
The case of letters in a target plays no part.

A target names a conversation, and whoever writes it may choose capitals as they like. What the bot
makes of a target is whether it begins with the mark of a channel, which is no letter, and which entry
for a channel is the first that has its name. Both stay the same when ASCII letters change their case;
other letters have no case here. So whole runs of messages may be readdressed in this way.

* **`SameLetter`**, **`SameLetters`** — texts that are equal up to the case of ASCII letters;
* **`sameName_iff_sameLetters`** — such texts, and no others, are the same name;
* **`Settings.switch_congr`** — targets with the same letters have the same switch;
* **`Settings.converse_readdressed`** — messages to such targets have the same answers.
-/
import ChatDice.Proofs.Chat.Switches
import ChatDice.Random.Script
import Mathlib.Data.List.Forall2

namespace ChatDice

/-! ### Letters -/

theorem isUpper_iff {c : Char} : c.isUpper ↔ 65 ≤ c.toNat ∧ c.toNat ≤ 90 := by
  delta Char.isUpper
  rw [decide_eq_true_iff, ← Char.toNat_val]
  exact and_congr UInt32.le_iff_toNat_le UInt32.le_iff_toNat_le

theorem toNat_toLower (c : Char) :
    c.toLower.toNat = if c.isUpper then c.toNat + 32 else c.toNat := by
  delta Char.toLower
  split
  · next h =>
    have hupper : c.isUpper := decide_eq_true h
    obtain ⟨-, hle⟩ := isUpper_iff.mp hupper
    rw [if_pos hupper]
    show (c.val.toNat + 32) % 4294967296 = c.val.toNat + 32
    rw [Char.toNat_val]
    exact Nat.mod_eq_of_lt (by omega)
  · next h =>
    have hnot : ¬ c.isUpper := fun hupper => h (of_decide_eq_true hupper)
    rw [if_neg hnot]

/-- Two characters are equal, or one is a capital ASCII letter and the other its small letter, which
stands 32 places behind it. -/
def SameLetter (c d : Char) : Prop :=
  c = d ∨ c.isUpper ∧ d.toNat = c.toNat + 32 ∨ d.isUpper ∧ c.toNat = d.toNat + 32

theorem sameLetter_iff {c d : Char} : SameLetter c d ↔ c.toLower = d.toLower := by
  rw [← Char.toNat_inj, toNat_toLower, toNat_toLower, SameLetter, ← Char.toNat_inj]
  simp only [isUpper_iff]
  split <;> split <;> omega

/-- The marks of channels are no letters. -/
theorem SameLetter.eq_of_mem_channelMarks {c d : Char} (h : SameLetter c d)
    (hc : c ∈ channelMarks) : c = d := by
  have hmark : ∀ c ∈ channelMarks, c.toNat < 65 := by simp [channelMarks]
  have hlt := hmark c hc
  rcases h with rfl | ⟨hupper, -⟩ | ⟨hupper, hcode⟩
  · rfl
  · have hle := (isUpper_iff.mp hupper).1
    omega
  · have hle := (isUpper_iff.mp hupper).1
    omega

theorem SameLetter.symm {c d : Char} (h : SameLetter c d) : SameLetter d c :=
  sameLetter_iff.mpr (sameLetter_iff.mp h).symm

/-! ### Names -/

/-- Two texts are equal up to the case of ASCII letters. -/
def SameLetters (a b : String) : Prop :=
  List.Forall₂ SameLetter a.toList b.toList

theorem sameName_iff_sameLetters {a b : String} : sameName a b ↔ SameLetters a b := by
  have hletter : SameLetter = fun c d => c.toLower = d.toLower := by
    funext c d
    exact propext sameLetter_iff
  rw [sameName_iff, ← List.forall₂_eq_eq_eq, List.forall₂_map_left_iff, List.forall₂_map_right_iff,
    SameLetters, hletter]

theorem isChannel_congr {a b : String} (h : SameLetters a b) : isChannel a = isChannel b := by
  rw [isChannel, isChannel]
  rw [SameLetters] at h
  generalize a.toList = cs at h ⊢
  generalize b.toList = ds at h ⊢
  -- only the first characters are looked at
  cases h with
  | nil => rfl
  | @cons c d _ _ hletter _ =>
    rw [Bool.eq_iff_iff]
    simp only [List.contains_iff_mem]
    exact ⟨fun hc => hletter.eq_of_mem_channelMarks hc ▸ hc,
      fun hd => hletter.symm.eq_of_mem_channelMarks hd ▸ hd⟩

theorem AutoRoll.channelEnabled_congr (switches : AutoRoll) {a b : String} (h : sameName a b) :
    switches.channelEnabled a = switches.channelEnabled b := by
  have hname (e : String × Bool) : sameName e.1 a = sameName e.1 b := by
    rw [Bool.eq_iff_iff, sameName_iff, sameName_iff, sameName_iff.mp h]
  simp only [channelEnabled, hname]

/-! ### Runs -/

/-- A message is another one with the same text, and its target has the same letters. -/
structure Message.Readdressed (m m' : Message) : Prop where
  target : SameLetters m.target m'.target
  text : m.text = m'.text

namespace Settings

theorem switch_congr (settings : Settings) {m m' : Message}
    (h : SameLetters m.target m'.target) : settings.switch m = settings.switch m' := by
  rw [switch, switch, isChannel_congr h,
    settings.autoRoll.channelEnabled_congr (sameName_iff_sameLetters.mpr h)]

variable {G : Type} [WordSource G]

/-- Readdress the messages of a run to targets that are the same up to the case of ASCII letters: all
answers are the same, and so is the source that is left in the end. -/
theorem converse_readdressed (settings : Settings) {messages messages' : List Message}
    (h : List.Forall₂ Message.Readdressed messages messages') (source : G) :
    settings.converse (messages.map .message) source =
      settings.converse (messages'.map .message) source := by
  refine converse_congr ?_ source
  rw [List.forall₂_map_left_iff, List.forall₂_map_right_iff]
  exact h.imp fun m m' hm => answer_congr rfl hm.text (settings.switch_congr hm.target)

/-- Two channels that differ in the case of a letter outside ASCII only, with entries that disagree,
and a person. -/
theorem converse_readdressed_beyond_ascii :
    let settings : Settings := ⟨"!", ⟨false, true, [("#DÉN", false), ("#dén", true)]⟩, none⟩
    let source : Script := ⟨#[0xffffffff, 0, 0x80000000], by decide, 0⟩
    let messages : List Message :=
      [⟨"#dÉn", "1d6"⟩, ⟨"#DéN", "2d6"⟩, ⟨"bob", "1d20"⟩, ⟨"#dÉn", "!roll 1d6"⟩]
    let messages' : List Message :=
      [⟨"#DÉN", "1d6"⟩, ⟨"#dén", "2d6"⟩, ⟨"BOB", "1d20"⟩, ⟨"#DÉn", "!roll 1d6"⟩]
    List.Forall₂ Message.Readdressed messages messages' ∧
      settings.converse (messages.map .message) source =
        settings.converse (messages'.map .message) source ∧
      (settings.converse (messages.map .message) source).1 =
        [.ok none, .ok (some (.message "[2d6] 7")), .ok (some (.message "[1d20] 11")),
          .ok (some (.message "[1d6] 6"))] := by
  intro settings source messages messages'
  have hletters {a b : String} (h : sameName a b) : SameLetters a b := sameName_iff_sameLetters.mp h
  have hmessages : List.Forall₂ Message.Readdressed messages messages' :=
    .cons ⟨hletters (by decide), rfl⟩ (.cons ⟨hletters (by decide), rfl⟩
      (.cons ⟨hletters (by decide), rfl⟩ (.cons ⟨hletters (by decide), rfl⟩ .nil)))
  exact ⟨hmessages, settings.converse_readdressed hmessages source, by decide +kernel⟩

end Settings

end ChatDice
