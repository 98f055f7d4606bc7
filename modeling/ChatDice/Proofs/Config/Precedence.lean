/-
Which layer a setting comes from.

A setting has the value that the environment gives it, or else the one in the configuration file,
or else its default. What the file says has no influence where the environment says something else
than a table: not even a value that the setting cannot have.

* **`SwitchesInTables`** — a layer in which the scan switches stand as tables, if it has them;
* **`Settings.has_of_ofLayers`** — the layer that a setting comes from;
* **`mergedLayers_eq_of_masked`** — what the file says under the environment;
* **`ConfigFile.Says`** — the document in a file;
* **`Settings.load_layered`** — both, for the settings that are loaded.
-/
import ChatDice.Config.Load
import ChatDice.Proofs.Config.Checked
import ChatDice.Proofs.Config.Reading
import Mathlib

namespace ChatDice

/-! ### Layers -/

/-- Where a layer sets the scan switches, or the channels among them, it does so by a table. -/
def SwitchesInTables (layer : Dict Value) : Prop :=
  (∀ v ∈ (Value.dict layer).at? ["auto_roll"], v.IsTable) ∧
    ∀ v ∈ (Value.dict layer).at? ["auto_roll", "channels"], v.IsTable

instance (layer : Dict Value) : Decidable (SwitchesInTables layer) :=
  inferInstanceAs (Decidable (_ ∧ _))

theorem switchesInTables_of_get?_eq_none {layer : Dict Value}
    (h : Dict.get? "auto_roll" layer = none) : SwitchesInTables layer := by
  refine ⟨fun v hv => ?_, fun v hv => ?_⟩ <;>
  · rw [Value.at?_dict_cons, h] at hv
    cases hv

/-- Nothing but tables lies on the way to a setting. -/
theorem SwitchesInTables.open_path {layer : Dict Value} (h : SwitchesInTables layer)
    (setting : Setting) : (Value.dict layer).Open setting.path := by
  have hswitches {path : List String} (hpath : ∀ entries,
      Dict.get? "auto_roll" layer = some (.dict entries) → (Value.dict entries).Open path) :
      (Value.dict layer).Open ("auto_roll" :: path) := by
    intro v hv
    obtain ⟨entries, rfl⟩ := (h.1 v (by rwa [Value.at?_dict_singleton])).exists_dict
    exact hpath entries hv
  cases setting with
  | commandPrefix | seed => exact fun v _ => v.open_nil
  | byDefault | direct => exact hswitches fun entries _ v _ => v.open_nil
  | channel name =>
    refine hswitches fun entries hentries v hv => ?_
    have hat : (Value.dict layer).at? ["auto_roll", "channels"] = some v := by
      rw [Value.at?_dict_cons, hentries, Option.bind_some, Value.at?_dict_singleton, hv]
    obtain ⟨channels, rfl⟩ := (h.2 v hat).exists_dict
    exact fun w _ => w.open_nil

theorem wellFormed_defaultLayer : (Value.dict defaultLayer).WellFormed := by
  refine .dict (by decide +kernel) (List.forall_mem_cons.mpr
    ⟨.dict (by decide +kernel) ?_, List.forall_mem_singleton.mpr (.text _)⟩)
  exact List.forall_mem_cons.mpr ⟨Value.wellFormed_empty, List.forall_mem_cons.mpr
    ⟨.boolean _, List.forall_mem_singleton.mpr (.boolean _)⟩⟩

theorem switchesInTables_defaultLayer : SwitchesInTables defaultLayer := by
  decide

/-- The first layer holds the defaults. -/
theorem at?_defaultLayer (setting : Setting) :
    (Value.dict defaultLayer).at? setting.path = setting.default? := by
  cases setting <;> rfl

theorem dict_mergedLayers (document environment : Dict Value) :
    Value.dict (mergedLayers document environment) =
      Value.merge (Value.merge (.dict defaultLayer) (.dict document)) (.dict environment) := by
  rw [Value.merge_dict_dict, Value.merge_dict_dict, mergedLayers]

/-! ### Where settings come from -/

/-- No setting is a table. -/
theorem Settings.Has.not_isTable {settings : Settings} {setting : Setting} {v : Value}
    (h : settings.Has setting (some v)) : ¬ v.IsTable := by
  cases setting with
  | commandPrefix | byDefault | direct =>
    cases h
    exact id
  | seed =>
    rw [Settings.Has] at h
    split at h
    · cases h
    · rcases h with h | h <;> (cases h; exact id)
  | channel name =>
    obtain ⟨b, -, rfl⟩ := Option.map_eq_some_iff.mp h.symm
    exact id

section

variable {document : Dict Value} {environment : Environment}

/-- A setting comes from the environment, or else from the document, or else it is the default. -/
theorem Settings.has_of_ofLayers (hwf : (Value.dict document).WellFormed)
    (hdocument : SwitchesInTables document) (henvironment : SwitchesInTables environment.layer)
    {settings : Settings} (h : Settings.ofLayers document environment = .ok settings)
    (setting : Setting) :
    settings.Has setting (((Value.dict environment.layer).at? setting.path).or
      (((Value.dict document).at? setting.path).or setting.default?)) := by
  -- the defaults under the document first, then both under the environment
  have hwfEnvironment := wellFormed_environment_layer environment
  have hopenDefault := switchesInTables_defaultLayer.open_path setting
  have hopen := hdocument.open_path setting
  have hopenEnvironment := henvironment.open_path setting
  have hwfLower := Value.wellFormed_merge wellFormed_defaultLayer hwf
  have hopenLower := Value.open_merge wellFormed_defaultLayer hwf hopenDefault hopen
  have hwfMerged := Value.wellFormed_merge hwfLower hwfEnvironment
  have hopenMerged := Value.open_merge hwfLower hwfEnvironment hopenLower hopenEnvironment
  have hat := Value.at?_merge hwfLower hwfEnvironment hopenLower hopenEnvironment
  rw [Value.at?_merge wellFormed_defaultLayer hwf hopenDefault hopen, at?_defaultLayer] at hat
  rw [← dict_mergedLayers] at hwfMerged hopenMerged hat
  have hhas := has_of_ofDict hwfMerged h hopenMerged
  rw [hat] at hhas
  -- what is found is a setting, so no table has been merged there
  have hnot : ∀ v ∈ Option.merge Value.merge (Option.merge Value.merge setting.default?
      ((Value.dict document).at? setting.path))
      ((Value.dict environment.layer).at? setting.path), ¬ v.IsTable := by
    intro v hv
    rw [hv, Option.some_or] at hhas
    exact hhas.not_isTable
  rwa [Value.option_merge_merge_eq_or hnot, Option.or_assoc, Option.or_assoc,
    Option.or_self] at hhas

/-- Where the environment says something other than a table, the document has no influence. -/
theorem mergedLayers_eq_of_masked {document' : Dict Value} (hwf : (Value.dict document).WellFormed)
    (hwf' : (Value.dict document').WellFormed) (hdocument : SwitchesInTables document)
    (hdocument' : SwitchesInTables document') {setting : Setting} {v : Value}
    (hat : (Value.dict environment.layer).at? setting.path = some v) (hv : ¬ v.IsTable)
    (hdiffer : Value.DifferOnlyAt setting.path (.dict document) (.dict document')) :
    mergedLayers document environment.layer = mergedLayers document' environment.layer := by
  have hmerged := Value.merge_eq_of_masked wellFormed_defaultLayer hwf hwf'
    (wellFormed_environment_layer environment) (switchesInTables_defaultLayer.open_path setting)
    (hdocument.open_path setting) (hdocument'.open_path setting) hat hv hdiffer
  rw [← dict_mergedLayers, ← dict_mergedLayers] at hmerged
  exact Value.dict.inj hmerged

/-! ### Loading -/

/-- Nothing behind the first file of a search has any influence. -/
theorem ConfigFile.ofEntries_append_file (path : String) (before : List PathEntry)
    (bytes : Option ByteArray) (rest : List PathEntry) :
    ofEntries path (before ++ PathEntry.file bytes :: rest) =
      ofEntries path (before ++ [PathEntry.file bytes]) := by
  have hhead : (before ++ PathEntry.file bytes :: rest).head? =
      (before ++ [PathEntry.file bytes]).head? := by
    rw [List.head?_append, List.head?_append, List.head?_cons, List.head?_cons]
  have hfirst : (before ++ PathEntry.file bytes :: rest).findSome? PathEntry.content? =
      (before ++ [PathEntry.file bytes]).findSome? PathEntry.content? := by
    rw [List.findSome?_append, List.findSome?_append]
    rfl
  rw [ofEntries, ofEntries, hhead, hfirst]

/-- A configuration file says what the document in it denotes, and nothing if there is no file. -/
inductive ConfigFile.Says : ConfigFile → Dict Value → Prop
  | absent : Says .absent []
  | found {content : String} {document : Dict Value} (read : Toml.ofText? content = some document) :
      Says (.found (some content)) document

theorem ConfigFile.Says.document_eq {file : ConfigFile} (h : file.Says document) :
    file.document = .ok document := by
  cases h with
  | absent => rfl
  | found read => rw [ConfigFile.document, read]

theorem ConfigFile.Says.wellFormed {file : ConfigFile} (h : file.Says document) :
    (Value.dict document).WellFormed := by
  cases h with
  | absent => exact Value.wellFormed_empty
  | found read => exact Toml.wellFormed_ofText? read

theorem Settings.load_eq_ofLayers {file : ConfigFile} (h : file.Says document) :
    Settings.load file environment =
      (Settings.ofLayers document environment).mapError LoadError.mismatch := by
  rw [Settings.load, h.document_eq]
  rfl

/-- A setting that is loaded comes from the environment, or else from the configuration file, or
else it is the default. And where the environment gives a setting any value but a table, what the
file says there can be replaced or left out: the same settings are loaded, or the same error is
reported. -/
theorem Settings.load_layered {file : ConfigFile} (hfile : file.Says document)
    (hdocument : SwitchesInTables document) (henvironment : SwitchesInTables environment.layer) :
    (∀ settings, Settings.load file environment = .ok settings → ∀ setting : Setting,
      settings.Has setting (((Value.dict environment.layer).at? setting.path).or
        (((Value.dict document).at? setting.path).or setting.default?))) ∧
    ∀ (setting : Setting) (v : Value),
      (Value.dict environment.layer).at? setting.path = some v → ¬ v.IsTable →
      ∀ (file' : ConfigFile) (document' : Dict Value), file'.Says document' →
        SwitchesInTables document' →
        Value.DifferOnlyAt setting.path (.dict document) (.dict document') →
        Settings.load file' environment = Settings.load file environment := by
  refine ⟨fun settings h setting => ?_, ?_⟩
  · rw [load_eq_ofLayers hfile] at h
    cases hlayers : Settings.ofLayers document environment with
    | error m =>
      rw [hlayers] at h
      cases h
    | ok settings' =>
      rw [hlayers] at h
      cases h
      exact has_of_ofLayers hfile.wellFormed hdocument henvironment hlayers setting
  · intro setting v hat hv file' document' hfile' hdocument' hdiffer
    rw [load_eq_ofLayers hfile, load_eq_ofLayers hfile', ofLayers, ofLayers,
      mergedLayers_eq_of_masked hfile.wellFormed hfile'.wellFormed hdocument hdocument' hat hv
        hdiffer]

end

/-- A document that sets the prefix and opens one channel, between two lines of its own. -/
def layeredText (first last : String) : String :=
  first ++ "command_prefix = \"?\"\n[auto_roll.channels]\n\"#den\" = true\n" ++ last

/-- Variables that set the seed and close another channel. -/
def layeredVariables : Environment :=
  [⟨"DICEBOT_SEED", "7"⟩, ⟨"DICEBOT_AUTO_ROLL__CHANNELS__#HALL", "false"⟩]

theorem layer_layeredVariables :
    layeredVariables.layer =
      [("auto_roll", .dict [("channels", .dict [("#hall", .boolean false)])]),
        ("seed", .unsigned 7)] := by
  have hseed : Variable.setting? ⟨"DICEBOT_SEED", "7"⟩ = some [("seed", .unsigned 7)] := rfl
  have hhall : Variable.setting? ⟨"DICEBOT_AUTO_ROLL__CHANNELS__#HALL", "false"⟩ =
      some [("auto_roll", .dict [("channels", .dict [("#hall", .boolean false)])])] := rfl
  have hlt : "auto_roll" < "seed" := by decide +kernel
  rw [Environment.layer, layeredVariables, List.filterMap_cons_some hseed,
    List.filterMap_cons_some hhall, List.filterMap_nil, List.foldl_cons, List.foldl_cons,
    List.foldl_nil, Value.mergeEntries, Value.mergeEntries, Value.mergeEntries, Value.mergeEntries,
    Dict.alter, Dict.alter, if_neg (by decide), if_pos hlt]

/-- What such a document denotes, its first line apart. -/
def layeredEntries (hall : Value) : Dict Value :=
  [("auto_roll", .dict [("channels", .dict [("#den", .boolean true), ("#hall", hall)])]),
    ("command_prefix", .text "?")]

/-- The file gives the prefix and one channel, the variables the seed and the other channel, and
what neither says is a default. What the file says under the variables does no harm, be it a date or
an array, and makes no difference. -/
theorem Settings.load_layered_layeredText :
    ∃ settings,
      Settings.load (.found (some (layeredText "seed = 1979-05-27\n" "\"#hall\" = true")))
        layeredVariables = .ok settings ∧
      settings.Has .commandPrefix (some (.text "?")) ∧
      settings.Has (.channel "#den") (some (.boolean true)) ∧
      settings.Has .seed (some (.unsigned 7)) ∧
      settings.Has (.channel "#hall") (some (.boolean false)) ∧
      settings.Has .direct (some (.boolean false)) ∧
      Settings.load (.found (some (layeredText "" "\"#hall\" = true")))
        layeredVariables = .ok settings ∧
      Settings.load (.found (some (layeredText "" "\"#hall\" = [7]")))
        layeredVariables = .ok settings := by
  -- three documents: with a seed, without one, and with an array in place of a switch
  have hdated : Toml.ofText? (layeredText "seed = 1979-05-27\n" "\"#hall\" = true") =
      some (layeredEntries (.boolean true) ++
        [("seed", .dict [(Toml.momentKey, .text "1979-05-27")])]) := by
    cbv
  have hseedless : Toml.ofText? (layeredText "" "\"#hall\" = true") =
      some (layeredEntries (.boolean true)) := by
    cbv
  have harray : Toml.ofText? (layeredText "" "\"#hall\" = [7]") =
      some (layeredEntries (.list [.signed 7])) := by
    cbv
  have hvariables : SwitchesInTables layeredVariables.layer := by
    decide +kernel
  have hloads : (Settings.load (.found (some (layeredText "" "\"#hall\" = true")))
      layeredVariables).toBool := by
    decide +kernel
  obtain ⟨hhas, hmasked⟩ := Settings.load_layered (.found hseedless) (by decide) hvariables
  rw [layer_layeredVariables] at hhas hmasked
  cases hload : Settings.load (.found (some (layeredText "" "\"#hall\" = true")))
    layeredVariables with
  | error e =>
    rw [hload] at hloads
    cases hloads
  | ok settings =>
    rw [hload] at hmasked
    have hhas := hhas settings hload
    refine ⟨settings, ?_, hhas .commandPrefix, hhas (.channel "#den"), hhas .seed,
      hhas (.channel "#hall"), hhas .direct, rfl, ?_⟩
    · have hdiffer : Value.DifferOnlyAt ["seed"] (.dict [])
          (.dict [("seed", .dict [(Toml.momentKey, .text "1979-05-27")])]) := by
        refine Value.differOnlyAt_cons_iff.mpr ⟨fun key hkey => ?_, Value.differOnlyAt_nil _ _⟩
        exact (if_neg hkey.symm).symm
      exact hmasked .seed (.unsigned 7) rfl id _ _ (.found hdated) (by decide)
        ((hdiffer.cons_of_ne (by decide) _).cons_of_ne (by decide) _)
    · have hdiffer : Value.DifferOnlyAt ["#hall"] (.dict [("#hall", .boolean true)])
          (.dict [("#hall", .list [.signed 7])]) :=
        (Value.differOnlyAt_nil _ _).cons_self _ _
      exact hmasked (.channel "#hall") (.boolean false) rfl id _ _ (.found harray) (by decide)
        (((hdiffer.cons_of_ne (by decide) _).cons_self _ _).cons_self _ _)

end ChatDice
