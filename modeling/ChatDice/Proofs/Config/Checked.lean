/-
What settings that pass the check say.

A check that succeeds has found, for each single setting, a value of the right kind at its place,
or nothing there, and then the default holds.

* **`Setting`**, **`Setting.path`**, **`Setting.default?`** — the single settings, the paths at
  which they stand and their defaults;
* **`Settings.Has`** — settings have a configuration value as one single setting;
* **`of_foldlM_eq_ok`** — what the entry of a key does when all entries are checked in turn;
* **`Settings.has_of_ofDict`** — the settings that a dictionary gives.
-/
import ChatDice.Proofs.Config.Merge
import ChatDice.Config.Check

namespace ChatDice

variable {α β σ : Type}

/-! ### Single settings -/

inductive Setting where
  | commandPrefix
  | seed
  /-- The switch for channels without an entry. -/
  | byDefault
  /-- The switch for conversations with one person. -/
  | direct
  | channel (name : String)

namespace Setting

/-- The keys that lead to a setting. -/
def path : Setting → List String
  | commandPrefix => ["command_prefix"]
  | seed => ["seed"]
  | byDefault => ["auto_roll", "default"]
  | direct => ["auto_roll", "private"]
  | channel name => ["auto_roll", "channels", name]

/-- What a setting is if nobody sets it. There is no seed then, and no entry for a channel. -/
def default? : Setting → Option Value
  | commandPrefix => some (.text "!")
  | byDefault | direct => some (.boolean false)
  | seed | channel _ => none

end Setting

/-- Settings have a configuration value, or none, as one single setting. -/
def Settings.Has (settings : Settings) : Setting → Option Value → Prop
  | .commandPrefix, v? => v? = some (.text settings.commandPrefix)
  | .seed, v? =>
    match settings.seed with
    | none => v? = none
    | some n => v? = some (.signed n.toNat) ∨ v? = some (.unsigned n.toNat)
  | .byDefault, v? => v? = some (.boolean settings.autoRoll.byDefault)
  | .direct, v? => v? = some (.boolean settings.autoRoll.direct)
  | .channel name, v? => v? = (Dict.get? name settings.autoRoll.channels).map Value.boolean

/-! ### Checks of single values -/

theorem checkBoolean_eq_ok {v : Value} {b : Bool} (h : checkBoolean v = .ok b) :
    v = .boolean b := by
  cases v <;> cases h
  rfl

theorem checkText_eq_ok {v : Value} {s : String} (h : checkText v = .ok s) : v = .text s := by
  cases v <;> cases h
  rfl

/-- Numbers of 64 bits are not changed by the check of a seed. -/
theorem checkSeed_eq_ok {v : Value} (hv : v.WellFormed) {n : UInt64} (h : checkSeed v = .ok n) :
    v = .signed n.toNat ∨ v = .unsigned n.toNat := by
  cases hv with
  | @signed m _ hgreatest =>
    rw [checkSeed] at h
    split at h
    · cases h
    · cases h
      refine .inl (congrArg Value.signed ?_)
      rw [greatestInt64] at hgreatest
      rw [UInt64.toNat_ofNat']
      omega
  | @unsigned m hgreatest =>
    cases h
    refine .inr (congrArg Value.unsigned ?_)
    rw [greatestUInt64] at hgreatest
    rw [UInt64.toNat_ofNat']
    omega
  | _ => cases h

/-! ### Checks one after another -/

theorem exists_of_bind_eq_ok {result : Checked α} {f : α → Checked β} {b : β}
    (h : result >>= f = .ok b) : ∃ a, result = .ok a ∧ f a = .ok b := by
  cases result with
  | error m => cases h
  | ok a => exact ⟨a, rfl, h⟩

theorem atKey_eq_ok {key : String} {result : Checked α} {a : α} (h : atKey key result = .ok a) :
    result = .ok a := by
  cases result with
  | error m => cases h
  | ok a' => exact h

/-- The value of a key is checked, and the result goes to a place of its own. -/
theorem exists_of_atKey_eq_ok {key : String} {result : Checked α} {f : α → β} {b : β}
    (h : (atKey key result >>= fun a => pure (f a)) = .ok b) : ∃ a, result = .ok a ∧ b = f a := by
  obtain ⟨a, ha, h⟩ := exists_of_bind_eq_ok h
  cases h
  exact ⟨a, atKey_eq_ok ha, rfl⟩

/-- The channels are those that the dictionary has. -/
theorem get?_of_checkChannelEntries {entries : Dict Value} {channels : List (String × Bool)}
    (h : checkChannelEntries entries = .ok channels) (name : String) :
    Dict.get? name entries = (Dict.get? name channels).map Value.boolean := by
  induction entries generalizing channels with
  | nil =>
    cases h
    rfl
  | cons e entries ih =>
    obtain ⟨key, v⟩ := e
    obtain ⟨enabled, henabled, h⟩ := exists_of_bind_eq_ok h
    obtain ⟨later, hlater, h⟩ := exists_of_bind_eq_ok h
    cases h
    rw [Dict.get?, Dict.get?, ih hlater]
    split
    · exact congrArg some (checkBoolean_eq_ok (atKey_eq_ok henabled))
    · rfl

section

variable (step : σ → String → Value → Checked σ) (part : σ → β) {key : String}
  {entries : Dict Value} {init final : σ}

/-- The entries of other keys do not change a part of the result that only one key changes. -/
theorem eq_of_foldlM_eq_ok
    (hkeep : ∀ ⦃s s' k v⦄, k ≠ key → step s k v = .ok s' → part s' = part s)
    (hother : ∀ e ∈ entries, e.1 ≠ key)
    (h : entries.foldlM (fun s (k, v) => step s k v) init = .ok final) :
    part final = part init := by
  induction entries generalizing init with
  | nil =>
    cases h
    rfl
  | cons e entries ih =>
    obtain ⟨hfirst, hother⟩ := List.forall_mem_cons.mp hother
    rw [List.foldlM_cons] at h
    obtain ⟨next, hnext, h⟩ := exists_of_bind_eq_ok h
    rw [ih hother h, hkeep hfirst hnext]

/-- When the entries of a dictionary are checked in turn, a part of the result that only one key
changes is what the entry of that key makes it. -/
theorem of_foldlM_eq_ok {R : Option Value → β → Prop}
    (hkeep : ∀ ⦃s s' k v⦄, k ≠ key → step s k v = .ok s' → part s' = part s)
    (hset : ∀ ⦃s s' v⦄, step s key v = .ok s' → R (some v) (part s'))
    (hinit : R none (part init)) (hsorted : entries.Sorted)
    (h : entries.foldlM (fun s (k, v) => step s k v) init = .ok final) :
    R (Dict.get? key entries) (part final) := by
  induction entries generalizing init with
  | nil =>
    cases h
    exact hinit
  | cons e entries ih =>
    obtain ⟨hfirst, hsorted⟩ := Dict.sorted_cons.mp hsorted
    rw [List.foldlM_cons] at h
    obtain ⟨next, hnext, h⟩ := exists_of_bind_eq_ok h
    rw [Dict.get?]
    by_cases hkey : e.1 = key
    · -- the keys behind this one are larger, so their entries leave the part as it is
      subst hkey
      rw [if_pos rfl, eq_of_foldlM_eq_ok step part hkeep (fun f hf => (hfirst f hf).ne') h]
      exact hset hnext
    · rw [if_neg hkey]
      exact ih (hkeep hkey hnext ▸ hinit) hsorted h

end

/-! ### The scan switches -/

/-- The entry of a key changes one switch only. -/
theorem AutoRoll.checkEntry_frame {switches switches' : AutoRoll} {key : String} {v : Value}
    (h : switches.checkEntry key v = .ok switches') :
    (key ≠ "channels" → switches'.channels = switches.channels) ∧
      (key ≠ "default" → switches'.byDefault = switches.byDefault) ∧
      (key ≠ "private" → switches'.direct = switches.direct) := by
  unfold checkEntry at h
  split at h
  · obtain ⟨_, -, rfl⟩ := exists_of_atKey_eq_ok h
    exact ⟨fun hkey => absurd rfl hkey, fun _ => rfl, fun _ => rfl⟩
  · obtain ⟨_, -, rfl⟩ := exists_of_atKey_eq_ok h
    exact ⟨fun _ => rfl, fun hkey => absurd rfl hkey, fun _ => rfl⟩
  · obtain ⟨_, -, rfl⟩ := exists_of_atKey_eq_ok h
    exact ⟨fun _ => rfl, fun _ => rfl, fun hkey => absurd rfl hkey⟩
  · cases h
    exact ⟨fun _ => rfl, fun _ => rfl, fun _ => rfl⟩

section

variable {entries : Dict Value} {switches : AutoRoll}

theorem byDefault_of_checkAutoRoll (hsorted : entries.Sorted)
    (h : checkAutoRoll (.dict entries) = .ok switches) :
    (Dict.get? "default" entries).or (some (.boolean false)) =
      some (.boolean switches.byDefault) := by
  refine of_foldlM_eq_ok AutoRoll.checkEntry AutoRoll.byDefault
    (R := fun v? b => v?.or (some (.boolean false)) = some (.boolean b))
    (fun _ _ _ _ hkey hstep => (AutoRoll.checkEntry_frame hstep).2.1 hkey) ?_ rfl hsorted h
  intro s s' v hstep
  obtain ⟨b, hb, rfl⟩ := exists_of_atKey_eq_ok hstep
  rw [checkBoolean_eq_ok hb, Option.some_or]

theorem direct_of_checkAutoRoll (hsorted : entries.Sorted)
    (h : checkAutoRoll (.dict entries) = .ok switches) :
    (Dict.get? "private" entries).or (some (.boolean false)) =
      some (.boolean switches.direct) := by
  refine of_foldlM_eq_ok AutoRoll.checkEntry AutoRoll.direct
    (R := fun v? b => v?.or (some (.boolean false)) = some (.boolean b))
    (fun _ _ _ _ hkey hstep => (AutoRoll.checkEntry_frame hstep).2.2 hkey) ?_ rfl hsorted h
  intro s s' v hstep
  obtain ⟨b, hb, rfl⟩ := exists_of_atKey_eq_ok hstep
  rw [checkBoolean_eq_ok hb, Option.some_or]

theorem channels_of_checkAutoRoll (hsorted : entries.Sorted)
    (h : checkAutoRoll (.dict entries) = .ok switches) :
    checkChannels (Value.child "channels" entries) = .ok switches.channels := by
  refine of_foldlM_eq_ok AutoRoll.checkEntry AutoRoll.channels
    (R := fun v? channels => checkChannels (v?.getD (.dict [])) = .ok channels)
    (fun _ _ _ _ hkey hstep => (AutoRoll.checkEntry_frame hstep).1 hkey) ?_ rfl hsorted h
  intro s s' v hstep
  obtain ⟨channels, hchannels, rfl⟩ := exists_of_atKey_eq_ok hstep
  exact hchannels

end

/-! ### All settings -/

namespace Settings

/-- The entry of a key changes one setting only. -/
theorem checkEntry_frame {settings settings' : Settings} {key : String} {v : Value}
    (h : settings.checkEntry key v = .ok settings') :
    (key ≠ "auto_roll" → settings'.autoRoll = settings.autoRoll) ∧
      (key ≠ "command_prefix" → settings'.commandPrefix = settings.commandPrefix) ∧
      (key ≠ "seed" → settings'.seed = settings.seed) := by
  unfold checkEntry at h
  split at h
  · obtain ⟨_, -, rfl⟩ := exists_of_atKey_eq_ok h
    exact ⟨fun hkey => absurd rfl hkey, fun _ => rfl, fun _ => rfl⟩
  · obtain ⟨_, -, rfl⟩ := exists_of_atKey_eq_ok h
    exact ⟨fun _ => rfl, fun hkey => absurd rfl hkey, fun _ => rfl⟩
  · obtain ⟨_, -, rfl⟩ := exists_of_atKey_eq_ok h
    exact ⟨fun _ => rfl, fun _ => rfl, fun hkey => absurd rfl hkey⟩
  · cases h
    exact ⟨fun _ => rfl, fun _ => rfl, fun _ => rfl⟩

section

variable {entries : Dict Value} {settings : Settings}

theorem commandPrefix_of_ofDict (hsorted : entries.Sorted) (h : ofDict entries = .ok settings) :
    (Dict.get? "command_prefix" entries).or (some (.text "!")) =
      some (.text settings.commandPrefix) := by
  refine of_foldlM_eq_ok Settings.checkEntry Settings.commandPrefix
    (R := fun v? s => v?.or (some (.text "!")) = some (.text s))
    (fun _ _ _ _ hkey hstep => (checkEntry_frame hstep).2.1 hkey) ?_ rfl hsorted h
  intro s s' v hstep
  obtain ⟨text, htext, rfl⟩ := exists_of_atKey_eq_ok hstep
  rw [checkText_eq_ok htext, Option.some_or]

theorem seed_of_ofDict (hsorted : entries.Sorted) (h : ofDict entries = .ok settings) :
    (Dict.get? "seed" entries = none ∧ settings.seed = none) ∨
      ∃ v n, Dict.get? "seed" entries = some v ∧ checkSeed v = .ok n ∧ settings.seed = some n := by
  refine of_foldlM_eq_ok Settings.checkEntry Settings.seed
    (R := fun v? n? => (v? = none ∧ n? = none) ∨
      ∃ v n, v? = some v ∧ checkSeed v = .ok n ∧ n? = some n)
    (fun _ _ _ _ hkey hstep => (checkEntry_frame hstep).2.2 hkey) ?_ (.inl ⟨rfl, rfl⟩) hsorted h
  intro s s' v hstep
  obtain ⟨n, hn, rfl⟩ := exists_of_atKey_eq_ok hstep
  exact .inr ⟨v, n, rfl, hn, rfl⟩

theorem autoRoll_of_ofDict (hsorted : entries.Sorted) (h : ofDict entries = .ok settings) :
    checkAutoRoll (Value.child "auto_roll" entries) = .ok settings.autoRoll := by
  refine of_foldlM_eq_ok Settings.checkEntry Settings.autoRoll
    (R := fun v? switches => checkAutoRoll (v?.getD (.dict [])) = .ok switches)
    (fun _ _ _ _ hkey hstep => (checkEntry_frame hstep).1 hkey) ?_ rfl hsorted h
  intro s s' v hstep
  obtain ⟨switches, hswitches, rfl⟩ := exists_of_atKey_eq_ok hstep
  exact hswitches

/-- The settings that a dictionary gives have what stands at their places, or else the
defaults. -/
theorem has_of_ofDict (hwf : (Value.dict entries).WellFormed) (h : ofDict entries = .ok settings)
    {setting : Setting} (hopen : (Value.dict entries).Open setting.path) :
    settings.Has setting (((Value.dict entries).at? setting.path).or setting.default?) := by
  have hsorted := (Value.wellFormed_dict_iff.mp hwf).1
  cases setting with
  | commandPrefix =>
    rw [Setting.path, Value.at?_dict_singleton]
    exact commandPrefix_of_ofDict hsorted h
  | seed =>
    rw [Setting.path, Value.at?_dict_singleton, Setting.default?, Option.or_none, Has]
    rcases seed_of_ofDict hsorted h with ⟨hget, hseed⟩ | ⟨v, n, hget, hcheck, hseed⟩
    · rw [hseed, hget]
    · rw [hseed, hget]
      rcases checkSeed_eq_ok (hwf.of_get? hget) hcheck with rfl | rfl
      · exact .inl rfl
      · exact .inr rfl
  | byDefault =>
    obtain ⟨inner, hinner, hwfInner, -⟩ := hwf.exists_child hopen
    have hcheck := hinner ▸ autoRoll_of_ofDict hsorted h
    rw [Setting.path, ← Value.at?_child, hinner, Value.at?_dict_singleton]
    exact byDefault_of_checkAutoRoll (Value.wellFormed_dict_iff.mp hwfInner).1 hcheck
  | direct =>
    obtain ⟨inner, hinner, hwfInner, -⟩ := hwf.exists_child hopen
    have hcheck := hinner ▸ autoRoll_of_ofDict hsorted h
    rw [Setting.path, ← Value.at?_child, hinner, Value.at?_dict_singleton]
    exact direct_of_checkAutoRoll (Value.wellFormed_dict_iff.mp hwfInner).1 hcheck
  | channel name =>
    obtain ⟨inner, hinner, hwfInner, hopen⟩ := hwf.exists_child hopen
    obtain ⟨channels, hchannels, -⟩ := hwfInner.exists_child hopen
    have hcheck := hinner ▸ autoRoll_of_ofDict hsorted h
    have hcheckChannels :=
      hchannels ▸ channels_of_checkAutoRoll (Value.wellFormed_dict_iff.mp hwfInner).1 hcheck
    rw [Setting.path, ← Value.at?_child, hinner, ← Value.at?_child, hchannels,
      Value.at?_dict_singleton, Setting.default?, Option.or_none]
    exact get?_of_checkChannelEntries hcheckChannels name

end

end Settings

end ChatDice
