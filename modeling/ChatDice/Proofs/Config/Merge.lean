/-
Configuration values laid over one another.

Two values that are well formed are merged path by path: along a path on which both have tables
only, the merged value has what the two have there, merged. Where the later one says anything but a
table, the earlier one has no influence.

* **`Value.WellFormed`**, **`Value.wellFormed_merge`** — tables in the order of their keys, numbers
  of at most 64 bits;
* **`Value.at?`**, **`Value.Open`** — what stands at the end of a path, and the paths that lead
  through tables only;
* **`Value.get?_mergeEntries`**, **`Value.at?_merge`** — merged tables, entry by entry and path by
  path;
* **`Value.option_merge_merge_eq_or`** — what comes of three layers at one place;
* **`Value.DifferOnlyAt`**, **`Value.differOnlyAt_cons_iff`** — values that agree outside the end of
  a path;
* **`Value.merge_eq_of_masked`** — a value in the middle of three layers may be changed at a path at
  which the last layer has something other than a table.
-/
import ChatDice.Config.Value
import ChatDice.Proofs.Config.Dict
import ChatDice.Width

namespace ChatDice

namespace Value

def IsTable : Value → Prop
  | dict _ => True
  | _ => False

instance : DecidablePred IsTable
  | dict _ => .isTrue trivial
  | boolean _ | signed _ | unsigned _ | float _ | text _ | list _ => .isFalse id

theorem IsTable.exists_dict {v : Value} (h : v.IsTable) : ∃ entries, v = .dict entries := by
  cases v with
  | dict entries => exact ⟨entries, rfl⟩
  | _ => exact h.elim

/-- Tables are in the order of their keys, at every depth, and whole numbers have at most 64 bits. -/
inductive WellFormed : Value → Prop
  | boolean (b : Bool) : WellFormed (boolean b)
  | signed {n : Int} (least_le : leastInt64 ≤ n) (le_greatest : n ≤ greatestInt64) :
      WellFormed (signed n)
  | unsigned {n : Nat} (le_greatest : n ≤ greatestUInt64) : WellFormed (unsigned n)
  | float (x : Float) : WellFormed (float x)
  | text (s : String) : WellFormed (text s)
  | list {items : List Value} (items_wellFormed : ∀ v ∈ items, WellFormed v) :
      WellFormed (list items)
  | dict {entries : List (String × Value)} (sorted : Dict.Sorted entries)
      (entries_wellFormed : ∀ e ∈ entries, WellFormed e.2) : WellFormed (dict entries)

theorem wellFormed_dict_iff {entries : List (String × Value)} :
    (dict entries).WellFormed ↔ Dict.Sorted entries ∧ ∀ e ∈ entries, e.2.WellFormed :=
  ⟨fun h => by cases h with | dict hsorted hentries => exact ⟨hsorted, hentries⟩,
    fun h => .dict h.1 h.2⟩

theorem wellFormed_empty : (dict []).WellFormed :=
  .dict List.Pairwise.nil (List.forall_mem_nil _)

theorem WellFormed.of_get? {entries : List (String × Value)}
    (h : (Value.dict entries).WellFormed) {key : String} {v : Value}
    (hget : Dict.get? key entries = some v) : v.WellFormed :=
  (wellFormed_dict_iff.mp h).2 _ (Dict.mem_of_get?_eq_some hget)

/-! ### Paths -/

/-- What stands at the end of a path of keys. -/
def at? : Value → List String → Option Value
  | v, [] => some v
  | dict entries, key :: path => (Dict.get? key entries).bind fun v => v.at? path
  | _, _ :: _ => none

theorem at?_nil (v : Value) : v.at? [] = some v := by
  cases v <;> rfl

theorem at?_dict_cons (entries : List (String × Value)) (key : String) (path : List String) :
    (dict entries).at? (key :: path) = (Dict.get? key entries).bind fun v => v.at? path := rfl

theorem at?_dict_singleton (entries : List (String × Value)) (key : String) :
    (dict entries).at? [key] = Dict.get? key entries := by
  simp only [at?_dict_cons, at?_nil, Option.bind_fun_some]

/-- On the way along a path, nothing but tables is met. -/
def Open : Value → List String → Prop
  | _, [] => True
  | dict entries, key :: path => ∀ v, Dict.get? key entries = some v → v.Open path
  | _, _ :: _ => False

theorem open_nil (v : Value) : v.Open [] := by
  cases v <;> trivial

theorem Open.exists_dict {v : Value} {key : String} {path : List String}
    (h : v.Open (key :: path)) :
    ∃ entries, v = dict entries ∧ ∀ w, Dict.get? key entries = some w → w.Open path := by
  cases v with
  | dict entries => exact ⟨entries, rfl, h⟩
  | _ => exact h.elim

theorem Open.isTable {v : Value} {key : String} {path : List String}
    (h : v.Open (key :: path)) : v.IsTable := by
  obtain ⟨entries, rfl, -⟩ := h.exists_dict
  trivial

theorem open_of_at? {v w : Value} {path : List String} (h : v.at? path = some w) : v.Open path := by
  induction path generalizing v with
  | nil => exact open_nil v
  | cons key path ih =>
    cases v with
    | dict entries =>
      intro u hu
      rw [at?_dict_cons, hu, Option.bind_some] at h
      exact ih h
    | _ => cases h

theorem open_empty (path : List String) : (dict []).Open path := by
  cases path with
  | nil => trivial
  | cons key path => exact nofun

/-- The value of a key. An empty table stands in for a missing one. -/
def child (key : String) (entries : List (String × Value)) : Value :=
  (Dict.get? key entries).getD (dict [])

theorem wellFormed_child {entries : List (String × Value)} (h : (dict entries).WellFormed)
    (key : String) : (child key entries).WellFormed := by
  rw [child]
  cases hget : Dict.get? key entries with
  | none => exact wellFormed_empty
  | some v => exact h.of_get? hget

theorem open_child {entries : List (String × Value)} {key : String} {path : List String}
    (h : (dict entries).Open (key :: path)) : (child key entries).Open path := by
  rw [child]
  cases hget : Dict.get? key entries with
  | none => exact open_empty path
  | some v => exact h v hget

theorem at?_child (entries : List (String × Value)) (key k : String) (path : List String) :
    (child key entries).at? (k :: path) = (dict entries).at? (key :: k :: path) := by
  rw [child, at?_dict_cons]
  cases Dict.get? key entries <;> rfl

/-- Where a path goes on behind a key, the value of the key is a table. -/
theorem WellFormed.exists_child {entries : List (String × Value)}
    (h : (Value.dict entries).WellFormed) {key k : String} {path : List String}
    (hopen : (Value.dict entries).Open (key :: k :: path)) :
    ∃ inner, child key entries = Value.dict inner ∧ (Value.dict inner).WellFormed ∧
      (Value.dict inner).Open (k :: path) := by
  obtain ⟨inner, hinner, -⟩ := (open_child hopen).exists_dict
  exact ⟨inner, hinner, hinner ▸ wellFormed_child h key, hinner ▸ open_child hopen⟩

/-! ### Merging -/

theorem merge_of_not_isTable {later : Value} (h : ¬ later.IsTable) (earlier : Value) :
    merge earlier later = later := by
  cases later with
  | dict new => exact absurd trivial h
  | _ => rw [merge]; nofun

theorem merge_dict_dict (old new : List (String × Value)) :
    merge (dict old) (dict new) = dict (mergeEntries old new) := by
  rw [merge]

theorem merge_dict_of_not_isTable {earlier : Value} (h : ¬ earlier.IsTable)
    (new : List (String × Value)) : merge earlier (dict new) = dict new := by
  cases earlier with
  | dict old => exact absurd trivial h
  | _ => rw [merge]; nofun

theorem isTable_merge {later : Value} (h : later.IsTable) (earlier : Value) :
    (merge earlier later).IsTable := by
  obtain ⟨new, rfl⟩ := h.exists_dict
  by_cases htable : earlier.IsTable
  · obtain ⟨old, rfl⟩ := htable.exists_dict
    rw [merge_dict_dict]
    trivial
  · rw [merge_dict_of_not_isTable htable]
    trivial

theorem sorted_mergeEntries {old : List (String × Value)} (h : Dict.Sorted old)
    (new : List (String × Value)) : Dict.Sorted (mergeEntries old new) := by
  induction new generalizing old with
  | nil => rwa [mergeEntries]
  | cons e new ih =>
    rw [mergeEntries]
    exact ih (h.alter _ _)

/-- Merged tables have, under each key, what the two have there, merged. -/
theorem get?_mergeEntries {old new : List (String × Value)} (hold : Dict.Sorted old)
    (hnew : Dict.Sorted new) (key : String) :
    Dict.get? key (mergeEntries old new) =
      Option.merge merge (Dict.get? key old) (Dict.get? key new) := by
  induction new generalizing old with
  | nil =>
    rw [mergeEntries, Dict.get?]
    cases Dict.get? key old <;> rfl
  | cons e new ih =>
    rw [mergeEntries, ih (hold.alter _ _) (Dict.sorted_cons.mp hnew).2, hold.get?_alter, Dict.get?]
    by_cases hkey : key = e.1
    · -- the later entries have other keys
      rw [if_pos hkey, if_pos hkey.symm, hnew.get?_tail hkey.le, hkey]
      cases Dict.get? e.1 old <;> rfl
    · rw [if_neg hkey, if_neg (Ne.symm hkey)]

theorem wellFormed_of_mem_mergeEntries {old new : List (String × Value)}
    (hold : ∀ e ∈ old, e.2.WellFormed) (hnew : ∀ e ∈ new, e.2.WellFormed)
    (hmerge : ∀ e ∈ new, ∀ v : Value, v.WellFormed → (merge v e.2).WellFormed) :
    ∀ e ∈ mergeEntries old new, e.2.WellFormed := by
  induction new generalizing old with
  | nil => rwa [mergeEntries]
  | cons f new ih =>
    rw [mergeEntries]
    refine ih (fun e he => ?_) (fun e he => hnew e (List.mem_cons_of_mem _ he))
      fun e he => hmerge e (List.mem_cons_of_mem _ he)
    rcases Dict.mem_of_mem_alter he with hmem | ⟨-, old?, hchange, hmem⟩
    · exact hold e hmem
    · rw [← hchange]
      cases old? with
      | none => exact hnew f List.mem_cons_self
      | some u => exact hmerge f List.mem_cons_self u (hold _ (hmem u rfl))

theorem wellFormed_merge {earlier later : Value} (hearlier : earlier.WellFormed)
    (hlater : later.WellFormed) : (merge earlier later).WellFormed := by
  induction hlater generalizing earlier with
  | @dict new hsorted hentries ih =>
    by_cases htable : earlier.IsTable
    · obtain ⟨old, rfl⟩ := htable.exists_dict
      obtain ⟨hold, holdEntries⟩ := wellFormed_dict_iff.mp hearlier
      rw [merge_dict_dict]
      exact .dict (sorted_mergeEntries hold _)
        (wellFormed_of_mem_mergeEntries holdEntries hentries fun e he v hv => ih e he hv)
    · rw [merge_dict_of_not_isTable htable]
      exact .dict hsorted hentries
  | _ =>
    rw [merge_of_not_isTable]
    · constructor
      all_goals assumption
    · exact id

theorem merge_empty_left {v : Value} (h : v.WellFormed) : merge (dict []) v = v := by
  by_cases htable : v.IsTable
  · obtain ⟨entries, rfl⟩ := htable.exists_dict
    have hsorted := (wellFormed_dict_iff.mp h).1
    have hnil : Dict.Sorted ([] : List (String × Value)) := List.Pairwise.nil
    rw [merge_dict_dict]
    refine congrArg dict ((sorted_mergeEntries hnil _).ext hsorted fun key => ?_)
    rw [get?_mergeEntries hnil hsorted, Dict.get?]
    cases Dict.get? key entries <;> rfl
  · exact merge_of_not_isTable htable _

theorem merge_empty_right {v : Value} (h : v.IsTable) : merge v (dict []) = v := by
  obtain ⟨entries, rfl⟩ := h.exists_dict
  rw [merge_dict_dict, mergeEntries]

/-! ### Merging along a path -/

section

variable {a b : Value} {path : List String}

/-- Along a path through tables, merged values have what the two have there, merged. -/
theorem at?_merge (ha : a.WellFormed) (hb : b.WellFormed) (hopenA : a.Open path)
    (hopenB : b.Open path) :
    (merge a b).at? path = Option.merge merge (a.at? path) (b.at? path) := by
  induction path generalizing a b with
  | nil => simp only [at?_nil, Option.merge]
  | cons key path ih =>
    obtain ⟨old, rfl, hopenA⟩ := hopenA.exists_dict
    obtain ⟨new, rfl, hopenB⟩ := hopenB.exists_dict
    rw [merge_dict_dict, at?_dict_cons, at?_dict_cons, at?_dict_cons,
      get?_mergeEntries (wellFormed_dict_iff.mp ha).1 (wellFormed_dict_iff.mp hb).1]
    cases hu : Dict.get? key old with
    | none => rw [Option.bind_none, Option.merge_none_left, Option.merge_none_left]
    | some u =>
      cases hw : Dict.get? key new with
      | none => rw [Option.bind_none, Option.merge_none_right, Option.merge_none_right]
      | some w => exact ih (ha.of_get? hu) (hb.of_get? hw) (hopenA u hu) (hopenB w hw)

theorem open_merge (ha : a.WellFormed) (hb : b.WellFormed) (hopenA : a.Open path)
    (hopenB : b.Open path) : (merge a b).Open path := by
  induction path generalizing a b with
  | nil => trivial
  | cons key path ih =>
    obtain ⟨old, rfl, hopenA⟩ := hopenA.exists_dict
    obtain ⟨new, rfl, hopenB⟩ := hopenB.exists_dict
    rw [merge_dict_dict]
    intro v hv
    rw [get?_mergeEntries (wellFormed_dict_iff.mp ha).1 (wellFormed_dict_iff.mp hb).1] at hv
    cases hu : Dict.get? key old with
    | none =>
      rw [hu, Option.merge_none_left] at hv
      exact hopenB v hv
    | some u =>
      cases hw : Dict.get? key new with
      | none =>
        rw [hu, hw, Option.merge_none_right] at hv
        exact hopenA v (hu.trans hv)
      | some w =>
        rw [hu, hw] at hv
        cases hv
        exact ih (ha.of_get? hu) (hb.of_get? hw) (hopenA u hu) (hopenB w hw)

end

/-- What is no table after merging is what the later value says or else the earlier one. -/
theorem option_merge_eq_or {earlier? later? : Option Value}
    (h : ∀ v ∈ Option.merge merge earlier? later?, ¬ v.IsTable) :
    Option.merge merge earlier? later? = later?.or earlier? := by
  cases later? with
  | none => rw [Option.merge_none_right, Option.none_or]
  | some w =>
    cases earlier? with
    | none => rw [Option.merge_none_left, Option.some_or]
    | some u =>
      have hw : ¬ w.IsTable := fun hw => h (merge u w) rfl (isTable_merge hw u)
      exact congrArg some (merge_of_not_isTable hw u)

/-- Of three values the last one counts that says something. -/
theorem option_merge_merge_eq_or {first? second? third? : Option Value}
    (h : ∀ v ∈ Option.merge merge (Option.merge merge first? second?) third?, ¬ v.IsTable) :
    Option.merge merge (Option.merge merge first? second?) third? =
      third?.or (second?.or first?) := by
  rw [option_merge_eq_or h]
  cases third? with
  | none =>
    rw [Option.merge_none_right] at h
    rw [option_merge_eq_or h]
  | some v => rfl

/-! ### Masking -/

/-- Two values have the same everywhere but at the end of a path and behind it. -/
def DifferOnlyAt (path : List String) (a b : Value) : Prop :=
  ∀ q, ¬ q <+: path → ¬ path <+: q → a.at? q = b.at? q

theorem DifferOnlyAt.child {key : String} {path : List String} {old new : List (String × Value)}
    (h : DifferOnlyAt (key :: path) (Value.dict old) (Value.dict new)) :
    DifferOnlyAt path (child key old) (child key new) := by
  intro q hq hpath
  cases q with
  | nil => exact absurd (List.nil_prefix) hq
  | cons k q =>
    rw [at?_child, at?_child]
    exact h (key :: k :: q) (fun hpre => hq ((List.prefix_cons_inj key).mp hpre))
      fun hpre => hpath ((List.prefix_cons_inj key).mp hpre)

theorem DifferOnlyAt.get?_eq {key k : String} {path : List String}
    {old new : List (String × Value)}
    (h : DifferOnlyAt (key :: path) (Value.dict old) (Value.dict new)) (hk : k ≠ key) :
    Dict.get? k old = Dict.get? k new := by
  have hget := h [k] (fun hpre => hk (List.cons_prefix_cons.mp hpre).1)
    fun hpre => hk (List.cons_prefix_cons.mp hpre).1.symm
  rwa [at?_dict_singleton, at?_dict_singleton] at hget

theorem differOnlyAt_nil (a b : Value) : DifferOnlyAt [] a b :=
  fun _ _ hpath => absurd List.nil_prefix hpath

/-- Tables differ only at the end of a path, if that is so behind its first key and the other keys
have the same values. -/
theorem differOnlyAt_cons_iff {key : String} {path : List String}
    {old new : List (String × Value)} :
    DifferOnlyAt (key :: path) (dict old) (dict new) ↔
      (∀ k ≠ key, Dict.get? k old = Dict.get? k new) ∧
        DifferOnlyAt path (child key old) (child key new) := by
  refine ⟨fun h => ⟨fun k hk => h.get?_eq hk, h.child⟩, fun ⟨hothers, hchild⟩ q hq hpath => ?_⟩
  cases q with
  | nil => exact absurd List.nil_prefix hq
  | cons k q =>
    by_cases hk : k = key
    · subst hk
      cases q with
      | nil => exact absurd (List.cons_prefix_cons.mpr ⟨rfl, List.nil_prefix⟩) hq
      | cons k' q =>
        rw [← at?_child, ← at?_child]
        exact hchild _ (fun hpre => hq ((List.prefix_cons_inj k).mpr hpre))
          fun hpre => hpath ((List.prefix_cons_inj k).mpr hpre)
    · rw [at?_dict_cons, at?_dict_cons, hothers k hk]

/-- Tables may have an entry of another key in common. -/
theorem DifferOnlyAt.cons_of_ne {key k : String} {path : List String}
    {old new : List (String × Value)} (h : DifferOnlyAt (key :: path) (dict old) (dict new))
    (hk : k ≠ key) (v : Value) :
    DifferOnlyAt (key :: path) (dict ((k, v) :: old)) (dict ((k, v) :: new)) := by
  obtain ⟨hothers, hchild⟩ := differOnlyAt_cons_iff.mp h
  refine differOnlyAt_cons_iff.mpr ⟨fun k' hk' => ?_, ?_⟩
  · rw [Dict.get?, Dict.get?, hothers k' hk']
  · rwa [Value.child, Value.child, Dict.get?, Dict.get?, if_neg hk, if_neg hk]

/-- Tables may differ in the entry of the first key. -/
theorem DifferOnlyAt.cons_self {path : List String} {v v' : Value} (h : DifferOnlyAt path v v')
    (key : String) (rest : List (String × Value)) :
    DifferOnlyAt (key :: path) (dict ((key, v) :: rest)) (dict ((key, v') :: rest)) := by
  refine differOnlyAt_cons_iff.mpr ⟨fun k hk => ?_, ?_⟩
  · rw [Dict.get?, Dict.get?, if_neg hk.symm, if_neg hk.symm]
  · rwa [Value.child, Value.child, Dict.get?, Dict.get?, if_pos rfl, if_pos rfl]

theorem option_merge_some_eq {v? : Option Value} {w : Value} (hw : w.WellFormed) :
    Option.merge merge v? (some w) = some (merge (v?.getD (dict [])) w) := by
  cases v? with
  | none => rw [Option.merge_none_left, Option.getD_none, merge_empty_left hw]
  | some v => rfl

theorem getD_option_merge {u? v? : Option Value} (hu : ∀ u ∈ u?, u.IsTable)
    (hv : ∀ v ∈ v?, v.WellFormed) :
    (Option.merge merge u? v?).getD (dict []) =
      merge (u?.getD (dict [])) (v?.getD (dict [])) := by
  cases v? with
  | some v => rw [option_merge_some_eq (hv v rfl), Option.getD_some, Option.getD_some]
  | none =>
    rw [Option.merge_none_right, Option.getD_none, merge_empty_right]
    cases u? with
    | none => trivial
    | some u => exact hu u rfl

/-- Where the last of three layers has something other than a table, the middle one has no
influence. -/
theorem merge_eq_of_masked {path : List String} {d x x' b v : Value} (hd : d.WellFormed)
    (hx : x.WellFormed) (hx' : x'.WellFormed) (hb : b.WellFormed) (hopenD : d.Open path)
    (hopen : x.Open path) (hopen' : x'.Open path) (hat : b.at? path = some v)
    (hv : ¬ v.IsTable) (hdiffer : DifferOnlyAt path x x') :
    merge (merge d x) b = merge (merge d x') b := by
  induction path generalizing d x x' b with
  | nil =>
    rw [at?_nil] at hat
    cases hat
    rw [merge_of_not_isTable hv, merge_of_not_isTable hv]
  | cons key path ih =>
    obtain ⟨ds, rfl, hopenD⟩ := hopenD.exists_dict
    obtain ⟨xs, rfl, hopen⟩ := hopen.exists_dict
    obtain ⟨xs', rfl, hopen'⟩ := hopen'.exists_dict
    obtain ⟨bs, rfl, -⟩ := (open_of_at? hat).exists_dict
    rw [at?_dict_cons, Option.bind_eq_some_iff] at hat
    obtain ⟨w, hw, hat⟩ := hat
    have hsortedD := (wellFormed_dict_iff.mp hd).1
    have hsorted := (wellFormed_dict_iff.mp hx).1
    have hsorted' := (wellFormed_dict_iff.mp hx').1
    have hsortedB := (wellFormed_dict_iff.mp hb).1
    simp only [merge_dict_dict]
    refine congrArg dict ((sorted_mergeEntries (sorted_mergeEntries hsortedD _) _).ext
      (sorted_mergeEntries (sorted_mergeEntries hsortedD _) _) fun k => ?_)
    rw [get?_mergeEntries (sorted_mergeEntries hsortedD _) hsortedB,
      get?_mergeEntries (sorted_mergeEntries hsortedD _) hsortedB,
      get?_mergeEntries hsortedD hsorted, get?_mergeEntries hsortedD hsorted']
    -- under the key of the path the values are merged in turn, under any other key the two in the
    -- middle are the same
    by_cases hk : k = key
    · subst hk
      rw [hw, option_merge_some_eq (hb.of_get? hw), option_merge_some_eq (hb.of_get? hw)]
      cases path with
      | nil =>
        rw [at?_nil] at hat
        cases hat
        rw [merge_of_not_isTable hv, merge_of_not_isTable hv]
      | cons key path =>
        rw [getD_option_merge (fun u hu => (hopenD u hu).isTable) fun u hu => hx.of_get? hu,
          getD_option_merge (fun u hu => (hopenD u hu).isTable) fun u hu => hx'.of_get? hu]
        exact congrArg some (ih (wellFormed_child hd _) (wellFormed_child hx _)
          (wellFormed_child hx' _) (hb.of_get? hw) (open_child hopenD) (open_child hopen)
          (open_child hopen') hat hdiffer.child)
    · rw [hdiffer.get?_eq hk]

end Value

end ChatDice
