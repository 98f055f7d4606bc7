/-
The switches of one kind of conversation have no part in the other kind.

Of all settings, a message meets the prefix of commands and one switch: that of its channel, or the
one for conversations with one person. So two bots that agree on these give the same answers, also
when their other switches differ, and from the same source they go on to the same source. As the
source is shared by all conversations, this is about whole runs.

* **`NamesChannel`**, **`isChannel_iff`** — the targets that are channels;
* **`Settings.answer_congr`**, **`Settings.converse_congr`** — one call and a conversation;
* **`Settings.converse_eq_of_switches`** — two bots that differ in the switches of the other kind of
  conversations.
-/
import ChatDice.Proofs.Chat.Channels
import ChatDice.Proofs.Chat.Dispatch
import ChatDice.Random.Stream

namespace ChatDice

/-! ### Targets -/

/-- A target that starts with the mark of a channel. -/
def NamesChannel (target : String) : Prop :=
  ∃ c ∈ target.toList.head?, c = '#' ∨ c = '&' ∨ c = '+' ∨ c = '!'

theorem isChannel_iff {target : String} : isChannel target ↔ NamesChannel target := by
  rw [isChannel, NamesChannel]
  cases target.toList with
  | nil => simp
  | cons c rest => simp [channelMarks]

/-! ### Two bots -/

variable {G : Type} [WordSource G]

namespace Settings

theorem commandArgument?_congr {a b : Settings} (h : a.commandPrefix = b.commandPrefix)
    (text : String) : a.commandArgument? text = b.commandArgument? text := by
  rw [commandArgument?, commandArgument?, h]

/-- A message meets the prefix of commands and the switch of its conversation. Apart from its text,
nothing else counts. -/
theorem answer_congr {a b : Settings} {m m' : Message} (hmark : a.commandPrefix = b.commandPrefix)
    (htext : m.text = m'.text) (hswitch : a.switch m = b.switch m') :
    (a.answer (.message m) : RollM G _) = b.answer (.message m') := by
  have hscans : a.scans m = b.scans m' := by
    rw [scans_eq_switch, scans_eq_switch, hswitch]
  have hbody : m.body = m'.body := by
    rw [Message.body, Message.body, htext]
  rw [answer, answer, handle, handle, commandArgument?_congr hmark, htext, hbody, hscans]

/-- Two bots that answer their calls one by one in the same way have the same conversations. -/
theorem converse_congr {a b : Settings} {calls calls' : List Call}
    (h : List.Forall₂ (fun call call' => (a.answer call : RollM G _) = b.answer call') calls calls')
    (source : G) : a.converse calls source = b.converse calls' source := by
  induction h generalizing source with
  | nil => rfl
  | cons hfirst _ ih =>
    -- both bots have left the same source behind the first call
    rw [converse, converse, hfirst]
    simp only [ih]

theorem converse_messages_congr {a b : Settings} (hmark : a.commandPrefix = b.commandPrefix)
    {messages : List Message} (hswitch : ∀ m ∈ messages, a.switch m = b.switch m) (source : G) :
    a.converse (messages.map .message) source = b.converse (messages.map .message) source := by
  refine converse_congr (List.forall₂_same.mpr fun call hcall => ?_) source
  obtain ⟨m, hm, rfl⟩ := List.mem_map.mp hcall
  exact answer_congr hmark rfl (hswitch m hm)

theorem switch_of_not_namesChannel {settings : Settings} {m : Message}
    (h : ¬ NamesChannel m.target) : settings.switch m = settings.autoRoll.direct :=
  if_neg fun hchannel => h (isChannel_iff.mp hchannel)

theorem switch_of_namesChannel {settings : Settings} {m : Message} (h : NamesChannel m.target) :
    settings.switch m = settings.autoRoll.channelEnabled m.target :=
  if_pos (isChannel_iff.mpr h)

/-! ### Separate switches -/

/-- The source of a new bot; `entropy` takes the place of a seed that is not set. -/
def start (settings : Settings) (entropy : UInt64) : Stream :=
  Stream.ofSeed (settings.seed.getD entropy)

/-- Take two new bots with the same prefix and the same seed. If their switches for conversations
with one person are the same, they give the same answers to all messages that go to no channel,
whatever the other switches are. If their switches for channels are the same, they give the same
answers to all messages that go to channels, whatever the switch for conversations with one person
is; and the entries of the channels may stand in another order, provided that no two of them
disagree on a channel. -/
theorem converse_eq_of_switches {a b : Settings} (hmark : a.commandPrefix = b.commandPrefix)
    (hseed : a.seed = b.seed) (entropy : UInt64) (messages : List Message) :
    let same := a.converse (messages.map .message) (a.start entropy) =
      b.converse (messages.map .message) (b.start entropy)
    (a.autoRoll.direct = b.autoRoll.direct → (∀ m ∈ messages, ¬ NamesChannel m.target) → same) ∧
    (a.autoRoll.byDefault = b.autoRoll.byDefault → a.autoRoll.channels = b.autoRoll.channels →
      (∀ m ∈ messages, NamesChannel m.target) → same) ∧
    (a.autoRoll.byDefault = b.autoRoll.byDefault → a.autoRoll.channels.Perm b.autoRoll.channels →
      a.autoRoll.Consistent → (∀ m ∈ messages, NamesChannel m.target) → same) := by
  intro same
  have hstart : a.start entropy = b.start entropy := by
    rw [start, start, hseed]
  have hsame (hswitch : ∀ m ∈ messages, a.switch m = b.switch m) : same := by
    show a.converse _ (a.start entropy) = b.converse _ (b.start entropy)
    rw [hstart]
    exact converse_messages_congr hmark hswitch (b.start entropy)
  refine ⟨fun hdirect hpeople => hsame fun m hm => ?_,
    fun hdefault hentries hchannels => hsame fun m hm => ?_,
    fun hdefault hperm hconsistent hchannels => hsame fun m hm => ?_⟩
  · rw [switch_of_not_namesChannel (hpeople m hm), switch_of_not_namesChannel (hpeople m hm), hdirect]
  · rw [switch_of_namesChannel (hchannels m hm), switch_of_namesChannel (hchannels m hm),
      AutoRoll.channelEnabled, AutoRoll.channelEnabled, hdefault, hentries]
  · rw [switch_of_namesChannel (hchannels m hm), switch_of_namesChannel (hchannels m hm)]
    exact AutoRoll.channelEnabled_of_perm hdefault hperm hconsistent m.target

/-- The bots disagree on everything else: on a person who has an entry among the channels in the
first run, and on conversations with one person in the second. -/
theorem converse_eq_of_switches_of_others :
    let a : Settings := ⟨"!", ⟨false, true, [("bob", false), ("#Den", true)]⟩, some 7⟩
    let b : Settings := ⟨"!", ⟨true, true, [("bob", true)]⟩, some 7⟩
    let c : Settings := ⟨"!", ⟨false, false, [("#Den", true), ("bob", false)]⟩, some 7⟩
    let people : List Message := [⟨"bob", "0d6+3"⟩, ⟨"", "!roll 2d6"⟩, ⟨"bob", "2#1d6"⟩]
    let channels : List Message := [⟨"#den", "0d6+3"⟩, ⟨"&inn", "1d6"⟩, ⟨"#DEN", "!roll 2d6"⟩]
    ((∀ m ∈ people, ¬ NamesChannel m.target) ∧ ∀ m ∈ channels, NamesChannel m.target) ∧
    a.converse (people.map .message) (a.start 0) = b.converse (people.map .message) (b.start 0) ∧
    a.converse (channels.map .message) (a.start 0) = c.converse (channels.map .message) (c.start 0) := by
  intro a b c people channels
  have hpeople : ∀ m ∈ people, ¬ NamesChannel m.target := by
    simp only [← isChannel_iff]
    decide
  have hchannels : ∀ m ∈ channels, NamesChannel m.target := by
    simp only [← isChannel_iff]
    decide
  have hconsistent : a.autoRoll.Consistent := by
    unfold AutoRoll.Consistent
    decide
  have hpersons := converse_eq_of_switches (a := a) (b := b) rfl rfl 0 people
  have hrooms := converse_eq_of_switches (a := a) (b := c) rfl rfl 0 channels
  exact ⟨⟨hpeople, hchannels⟩, hpersons.1 rfl hpeople,
    hrooms.2.2 rfl (List.Perm.swap _ _ _) hconsistent hchannels⟩

end Settings

end ChatDice
