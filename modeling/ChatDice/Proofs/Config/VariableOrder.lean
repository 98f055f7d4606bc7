/-
The order of the variables of an environment plays no part.

Nothing decides on the order in which variables are looked at. Two of them get in each other's way only
if one of their paths begins with the other. Otherwise the paths part at some key, and values that are
laid over a table under different keys may be laid over it in either order. So an environment whose
paths keep apart makes one layer in every order, and what is loaded is the same, be it settings or an
error.

* **`Value.merge_nest_comm`** — two values at the ends of paths that part;
* **`Environment.Separate`** — no path of a variable begins with the path of another one;
* **`Environment.layer_eq_of_perm`** — the layer of such an environment;
* **`Settings.load_of_perm`** — what is loaded under it.
-/
import ChatDice.Config.Load
import ChatDice.Proofs.Config.Reading
import Mathlib.Data.List.Pairwise

namespace ChatDice

/-! ### Values at the ends of paths -/

namespace Value

/-- Under its one key, a dictionary is laid over what stands there. -/
theorem mergeEntries_singleton (old : List (String × Value)) (key : String) (v : Value) :
    mergeEntries old [(key, v)] =
      Dict.alter key (fun old? => old?.elim v fun earlier => merge earlier v) old := by
  rw [mergeEntries, mergeEntries]
  congr
  funext old?
  cases old? <;> rfl

theorem merge_dict_nest (entries : List (String × Value)) (key : String) (path : List String)
    (v : Value) :
    merge (dict entries) (nest (key :: path) v) =
      dict (Dict.alter key
        (fun old? => old?.elim (nest path v) fun earlier => merge earlier (nest path v)) entries) := by
  show merge (dict entries) (dict [(key, nest path v)]) = _
  rw [merge_dict_dict, mergeEntries_singleton]

variable {path path' : List String}

theorem merge_empty_nest (h : path ≠ []) (v : Value) :
    merge (dict []) (nest path v) = nest path v := by
  cases path with
  | nil => exact absurd rfl h
  | cons key path =>
    rw [merge_dict_nest]
    rfl

/-- A value that is no table gives way to what is put behind a key, as if it were an empty one. -/
theorem merge_nest_of_not_isTable {x : Value} (hx : ¬ x.IsTable) (key : String)
    (path : List String) (v : Value) :
    merge x (nest (key :: path) v) = merge (dict []) (nest (key :: path) v) := by
  rw [merge_empty_nest (List.cons_ne_nil key path)]
  exact merge_dict_of_not_isTable hx [(key, nest path v)]

/-- Values at the ends of two paths, none of which begins with the other, may be laid over a third
value in either order. -/
theorem merge_nest_comm (h : ¬ path <+: path') (h' : ¬ path' <+: path) (x v w : Value) :
    merge (merge x (nest path v)) (nest path' w) =
      merge (merge x (nest path' w)) (nest path v) := by
  induction path generalizing path' x with
  | nil => exact absurd List.nil_prefix h
  | cons key path ih =>
    cases path' with
    | nil => exact absurd List.nil_prefix h'
    | cons key' path' =>
      have htable (entries : List (String × Value)) :
          merge (merge (dict entries) (nest (key :: path) v)) (nest (key' :: path') w) =
            merge (merge (dict entries) (nest (key' :: path') w)) (nest (key :: path) v) := by
        simp only [merge_dict_nest]
        by_cases hkey : key = key'
        · -- the paths part behind this key, where something stands already or nothing does
          subst hkey
          rw [List.prefix_cons_inj] at h h'
          rw [Dict.alter_alter, Dict.alter_alter]
          congr
          funext old?
          cases old? with
          | some earlier => exact ih h h' earlier
          | none =>
            have hpath : path ≠ [] := fun hnil => h (hnil ▸ List.nil_prefix)
            have hpath' : path' ≠ [] := fun hnil => h' (hnil ▸ List.nil_prefix)
            have hempty := ih h h' (dict [])
            rwa [merge_empty_nest hpath, merge_empty_nest hpath'] at hempty
        · rw [Dict.alter_comm hkey]
      by_cases hx : x.IsTable
      · obtain ⟨entries, rfl⟩ := hx.exists_dict
        exact htable entries
      · rw [merge_nest_of_not_isTable hx, merge_nest_of_not_isTable hx]
        exact htable []

end Value

/-! ### Variables -/

/-- Dictionaries that may be laid over any other one in either order. -/
def Commuting (d d' : Dict Value) : Prop :=
  ∀ old, Value.mergeEntries (Value.mergeEntries old d) d' =
    Value.mergeEntries (Value.mergeEntries old d') d

instance : Std.Symm Commuting :=
  ⟨fun _ _ h old => (h old).symm⟩

namespace Environment

/-- The paths of keys that the variables stand for. A variable that is no setting has none. -/
def paths (environment : Environment) : List (List String) :=
  environment.filterMap fun v => settingPath? v.name

/-- The variables stand for different paths, and no path begins with another one. -/
def Separate (environment : Environment) : Prop :=
  environment.paths.Pairwise fun path path' => ¬ path <+: path' ∧ ¬ path' <+: path

instance (environment : Environment) : Decidable environment.Separate :=
  inferInstanceAs (Decidable (List.Pairwise _ _))

variable {environment environment' : Environment}

theorem Separate.pairwise_commuting (h : environment.Separate) :
    (environment.filterMap Variable.setting?).Pairwise Commuting := by
  rw [Separate, paths, List.pairwise_filterMap] at h
  rw [List.pairwise_filterMap]
  refine h.imp fun {v v'} hpaths d hd d' hd' old => ?_
  obtain ⟨path, hpath, hdict⟩ := v.exists_path_of_setting? hd
  obtain ⟨path', hpath', hdict'⟩ := v'.exists_path_of_setting? hd'
  obtain ⟨hpre, hpre'⟩ := hpaths path hpath path' hpath'
  have hcomm := Value.merge_nest_comm hpre hpre' (.dict old) (readVariableValue v.text)
    (readVariableValue v'.text)
  rw [← hdict, ← hdict'] at hcomm
  simpa only [Value.merge_dict_dict, Value.dict.injEq] using hcomm

theorem layer_eq_of_perm (hperm : environment.Perm environment') (h : environment.Separate) :
    environment.layer = environment'.layer := by
  have hcommute := List.Pairwise.forall_of_forall (fun d _ old => rfl) h.pairwise_commuting
  rw [layer, layer]
  exact (hperm.filterMap Variable.setting?).foldl_eq'
    (fun d hd d' hd' old => hcommute hd hd' old) []

end Environment

/-! ### Loading -/

/-- Look at the variables of an environment in any other order: if their paths keep apart, the same
settings are loaded, or the same error is reported, whatever the configuration file says. -/
theorem Settings.load_of_perm {environment environment' : Environment}
    (hperm : environment.Perm environment') (h : environment.Separate) (file : ConfigFile) :
    Settings.load file environment = Settings.load file environment' := by
  simp only [load, ofLayers, Environment.layer_eq_of_perm hperm h]

/-- Two variables have values of the wrong kind, and two that are no settings would have the same path.
In either order the mismatch is reported whose key comes first. -/
theorem Settings.load_of_perm_reversed :
    let environment : Environment :=
      [⟨"DICEBOT_SEED", "x"⟩, ⟨"dicebot_auto_roll__private", "1"⟩, ⟨"DICEBOT___SEED", "7"⟩,
        ⟨"SEED", "7"⟩, ⟨"DICEBOT_AUTO_ROLL__CHANNELS__#DEN", "true"⟩]
    let mismatch? : Except LoadError Settings → Option (List String × ExpectedKind)
      | .error (.mismatch m) => some (m.path, m.expected)
      | _ => none
    (environment.Perm environment.reverse ∧ environment.Separate) ∧
      Settings.load .absent environment = Settings.load .absent environment.reverse ∧
      mismatch? (Settings.load .absent environment) =
        some (["auto_roll", "private"], .boolean) := by
  intro environment mismatch?
  have hperm : environment.Perm environment.reverse := (List.reverse_perm environment).symm
  have hseparate : environment.Separate := by decide +kernel
  exact ⟨⟨hperm, hseparate⟩, load_of_perm hperm hseparate .absent, by decide +kernel⟩

end ChatDice
