/-
The switch of a channel, and the order of the entries for channels.

Names of channels are compared without regard to case, but an entry is kept for each way to write a
name. If two entries for one channel disagree, the one that comes first makes the answer. So the
answer depends on the order of the entries, which nothing in the settings decides.

* **`AutoRoll.Gives`** — the answers that the entries for a channel give, each on its own;
* **`AutoRoll.exists_perm_channelEnabled_iff`** — these are the answers in some order of the entries;
* **`AutoRoll.channelEnabled_of_perm`** — the order plays no part, provided that no two entries
  disagree on a channel;
* **`AutoRoll.consistent_iff_channelEnabled_perm`** — and only then;
* **`AutoRoll.channelEnabled_depends_on_order`** — a file and a variable that together give a channel
  two entries.
-/
import ChatDice.Chat.Settings
import ChatDice.Config.Load

namespace ChatDice

/-! ### Names -/

theorem sameName_iff {a b : String} :
    sameName a b ↔ a.toList.map Char.toLower = b.toList.map Char.toLower := by
  rw [sameName, beq_iff_eq]

theorem sameName_refl (a : String) : sameName a a :=
  sameName_iff.mpr rfl

/-- Two names that are the same as a third one are the same. -/
theorem sameName_of_sameName {a b c : String} (ha : sameName a c) (hb : sameName b c) :
    sameName a b :=
  sameName_iff.mpr ((sameName_iff.mp ha).trans (sameName_iff.mp hb).symm)

namespace AutoRoll

/-! ### What the entries say -/

/-- Entries whose names differ in the case of ASCII letters only have the same switch. -/
def Consistent (switches : AutoRoll) : Prop :=
  ∀ e ∈ switches.channels, ∀ e' ∈ switches.channels, sameName e.1 e'.1 → e.2 = e'.2

/-- An answer for a channel: the switch of an entry with its name, or the default if there is no
such entry. -/
inductive Gives (switches : AutoRoll) (channel : String) : Bool → Prop
  | entry {e : String × Bool} (mem : e ∈ switches.channels) (name : sameName e.1 channel) :
      Gives switches channel e.2
  | byDefault (none : ∀ e ∈ switches.channels, ¬ sameName e.1 channel) :
      Gives switches channel switches.byDefault

variable {switches : AutoRoll} {channel : String}

theorem gives_channelEnabled (switches : AutoRoll) (channel : String) :
    switches.Gives channel (switches.channelEnabled channel) := by
  rw [channelEnabled]
  cases hfind : switches.channels.find? fun e => sameName e.1 channel with
  | none => exact .byDefault fun e he => List.find?_eq_none.mp hfind e he
  | some e =>
    have hname : sameName e.1 channel := by simpa using List.find?_some hfind
    exact .entry (List.mem_of_find?_eq_some hfind) hname

theorem Gives.of_perm {a b : AutoRoll} {enabled : Bool} (h : a.Gives channel enabled)
    (hdefault : a.byDefault = b.byDefault) (hperm : a.channels.Perm b.channels) :
    b.Gives channel enabled := by
  cases h with
  | entry hmem hname => exact .entry (hperm.mem_iff.mp hmem) hname
  | byDefault hnone =>
    rw [hdefault]
    exact .byDefault fun e he => hnone e (hperm.mem_iff.mpr he)

theorem Consistent.gives_unique (h : switches.Consistent) {enabled enabled' : Bool}
    (hgives : switches.Gives channel enabled) (hgives' : switches.Gives channel enabled') :
    enabled = enabled' := by
  cases hgives with
  | entry hmem hname =>
    cases hgives' with
    | entry hmem' hname' => exact h _ hmem _ hmem' (sameName_of_sameName hname hname')
    | byDefault hnone => exact absurd hname (hnone _ hmem)
  | byDefault hnone =>
    cases hgives' with
    | entry hmem' hname' => exact absurd hname' (hnone _ hmem')
    | byDefault => rfl

/-! ### Orders of the entries -/

theorem channelEnabled_of_perm {a b : AutoRoll} (hdefault : a.byDefault = b.byDefault)
    (hperm : a.channels.Perm b.channels) (hconsistent : a.Consistent) (channel : String) :
    a.channelEnabled channel = b.channelEnabled channel :=
  hconsistent.gives_unique (gives_channelEnabled a channel)
    ((gives_channelEnabled b channel).of_perm hdefault.symm hperm.symm)

/-- The same switches with other entries for channels. -/
def withEntries (switches : AutoRoll) (entries : List (String × Bool)) : AutoRoll :=
  { switches with channels := entries }

theorem channelEnabled_of_first {e : String × Bool} (hname : sameName e.1 channel)
    (entries : List (String × Bool)) :
    (switches.withEntries (e :: entries)).channelEnabled channel = e.2 := by
  simp only [channelEnabled, withEntries, List.find?_cons, hname]

theorem channelEnabled_of_none (h : ∀ e ∈ switches.channels, ¬ sameName e.1 channel) :
    switches.channelEnabled channel = switches.byDefault := by
  have hfind : (switches.channels.find? fun e => sameName e.1 channel) = none :=
    List.find?_eq_none.mpr h
  rw [channelEnabled, hfind]

/-- Whatever an entry says about a channel is the answer in some order of the entries, and in no
order there is another answer. -/
theorem exists_perm_channelEnabled_iff {enabled : Bool} :
    (∃ entries, entries.Perm switches.channels ∧
      (switches.withEntries entries).channelEnabled channel = enabled) ↔
      switches.Gives channel enabled := by
  constructor
  · rintro ⟨entries, hperm, rfl⟩
    exact (gives_channelEnabled _ channel).of_perm rfl hperm
  · intro h
    cases h with
    | @entry e hmem hname =>
      exact ⟨e :: switches.channels.erase e, (List.perm_cons_erase hmem).symm,
        channelEnabled_of_first hname _⟩
    | byDefault hnone => exact ⟨switches.channels, .refl _, channelEnabled_of_none hnone⟩

/-- The order of the entries plays no part exactly if entries whose names differ in the case of
ASCII letters only have the same switch. Then the answer for a channel is what any entry with its
name says, and the default if there is none. -/
theorem consistent_iff_channelEnabled_perm (switches : AutoRoll) :
    (switches.Consistent ↔ ∀ channel entries, entries.Perm switches.channels →
      (switches.withEntries entries).channelEnabled channel = switches.channelEnabled channel) ∧
    (switches.Consistent → ∀ channel enabled, switches.Gives channel enabled →
      switches.channelEnabled channel = enabled) := by
  refine ⟨⟨fun h channel entries hperm => ?_, fun h e he e' he' hname => ?_⟩, ?_⟩
  · rw [channelEnabled_of_perm (a := switches) (b := switches.withEntries entries) rfl hperm.symm h]
  · -- each of the two entries makes the answer in some order
    obtain ⟨entries, hperm, hfirst⟩ := exists_perm_channelEnabled_iff.mpr (Gives.entry he hname)
    obtain ⟨entries', hperm', hfirst'⟩ :=
      exists_perm_channelEnabled_iff.mpr (Gives.entry he' (sameName_refl e'.1))
    calc e.2 = switches.channelEnabled e'.1 := by rw [← hfirst, h _ _ hperm]
      _ = e'.2 := by rw [← hfirst', h _ _ hperm']
  · exact fun h channel enabled hgives => h.gives_unique (gives_channelEnabled switches channel) hgives

/-- Variables name channels in lower case. So a variable adds an entry to one that a file has under
another name, and either of the two may be met first. -/
theorem channelEnabled_depends_on_order :
    let file := "[auto_roll.channels]\n\"#Den\" = false\n"
    let environment : Environment := [⟨"DICEBOT_AUTO_ROLL__CHANNELS__#DEN", "true"⟩]
    let switches : AutoRoll := ⟨false, false, [("#Den", false), ("#den", true)]⟩
    (Settings.load (.found (some file)) environment).toOption.map Settings.autoRoll =
        some switches ∧
      (switches.channels.map Prod.fst).Nodup ∧
      [("#den", true), ("#Den", false)].Perm switches.channels ∧
      (switches.withEntries [("#den", true), ("#Den", false)]).channelEnabled "#den" ≠
        switches.channelEnabled "#den" := by
  intro file environment switches
  exact ⟨by decide +kernel, by decide, List.Perm.swap _ _ _, by decide⟩

end AutoRoll

end ChatDice
