/-
What configuration text says is well formed.

Whatever a variable of the environment or a document says, its tables are in the order of their
keys and its whole numbers fit in 64 bits. So both kinds of layers can be merged path by path.

* **`TextReader.Yields`** — all that a reader can read satisfies a predicate;
* **`yields_readItems`** — items in brackets;
* **`wellFormed_readVariableValue`**, **`wellFormed_environment_layer`** — variables;
* **`Toml.yields_readValue?`**, **`Toml.wellFormed_ofText?`** — documents.
-/
import ChatDice.Config.Environment
import ChatDice.Config.Toml.Document
import ChatDice.Proofs.Config.Tables

namespace ChatDice

variable {α β : Type}

/-! ### Readers -/

/-- Whatever the reader reads, from whatever text, satisfies the predicate. -/
def TextReader.Yields (reader : TextReader α) (P : α → Prop) : Prop :=
  ∀ ⦃cs a rest⦄, reader cs = some (a, rest) → P a

/-- A reader that makes something of what another one reads. -/
theorem TextReader.Yields.of_map {P : α → Prop} {Q : β → Prop} {reader : TextReader α}
    (h : reader.Yields P) {f : α → β} (hf : ∀ a, P a → Q (f a)) {cs rest : List Char} {b : β}
    (hread : ((reader cs).map fun (a, rest) => (f a, rest)) = some (b, rest)) : Q b := by
  obtain ⟨⟨a, left⟩, ha, heq⟩ := Option.map_eq_some_iff.mp hread
  cases heq
  exact hf a (h ha)

theorem yields_readItems {P : α → Prop} {item : TextReader α} (hitem : item.Yields P)
    (style : ItemStyle) (mayClose : Bool) :
    TextReader.Yields (readItems style item mayClose) fun as => ∀ a ∈ as, P a := by
  intro cs as rest h
  -- what follows a comma is a shorter text
  induction hn : cs.length using Nat.strongRecOn generalizing cs as rest mayClose with
  | _ n ih =>
    rw [readItems] at h
    obtain ⟨front, -, h⟩ := Option.bind_eq_some_iff.mp h
    split at h
    · cases h
      exact List.forall_mem_nil _
    · obtain ⟨⟨a, left⟩, ha, h⟩ := Option.bind_eq_some_iff.mp h
      obtain ⟨afterGap, -, h⟩ := Option.bind_eq_some_iff.mp h
      split at h
      · cases h
      · split at h
        · cases h
          exact List.forall_mem_singleton.mpr (hitem ha)
        · split at h
          · split at h
            · next hshorter =>
              obtain ⟨⟨later, left'⟩, hlater, h⟩ := Option.bind_eq_some_iff.mp h
              cases h
              exact List.forall_mem_cons.mpr ⟨hitem ha, ih _ (hn ▸ hshorter) _ hlater rfl⟩
            · cases h
          · cases h

/-! ### Variables -/

theorem bounds_of_readNegative64? {cs : List Char} {n : Int} (h : readNegative64? cs = some n) :
    leastInt64 ≤ n ∧ n ≤ 0 := by
  unfold readNegative64? at h
  split at h
  · obtain ⟨m, hm, rfl⟩ := Option.map_eq_some_iff.mp h
    obtain ⟨k, hk, hm⟩ := Option.bind_eq_some_iff.mp hm
    cases hm
    have hle : k ≤ leastInt64.natAbs := of_decide_eq_true (Option.filter_eq_some_iff.mp hk).2
    have hleast : leastInt64 = -(leastInt64.natAbs : Int) := rfl
    omega
  · cases h

theorem wellFormed_wordValue (word : List Char) : (wordValue word).WellFormed := by
  rw [wordValue]
  split
  · exact .float _
  · split
    · next n hread =>
      exact .unsigned (of_decide_eq_true (Option.filter_eq_some_iff.mp hread).2)
    · split
      · next n hread =>
        obtain ⟨hleast, hneg⟩ := bounds_of_readNegative64? hread
        exact .signed hleast (hneg.trans (by decide))
      · exact .text _

/-- A dictionary of well formed values, whatever the order and the keys of its entries. -/
theorem wellFormed_dictOf {entries : List (String × Value)}
    (h : ∀ e ∈ entries, e.2.WellFormed) : (dictOf entries).WellFormed := by
  suffices hfold : ∀ d : Dict Value, (Value.dict d).WellFormed →
      (Value.dict (entries.foldl (fun d e => Dict.insert e.1 e.2 d) d)).WellFormed from
    hfold [] Value.wellFormed_empty
  intro d hd
  induction entries generalizing d with
  | nil => exact hd
  | cons e entries ih =>
    obtain ⟨he, hentries⟩ := List.forall_mem_cons.mp h
    obtain ⟨hsorted, hold⟩ := Value.wellFormed_dict_iff.mp hd
    refine ih hentries _ (.dict (hsorted.insert _ _) fun f hf => ?_)
    rcases Dict.mem_of_mem_alter hf with hf | ⟨-, _, hvalue, -⟩
    · exact hold f hf
    · exact hvalue ▸ he

theorem yields_readPair? {value : TextReader Value} (hvalue : value.Yields Value.WellFormed) :
    (readPair? value).Yields fun e => e.2.WellFormed := by
  intro cs e rest h
  obtain ⟨⟨key, left⟩, -, h⟩ := Option.bind_eq_some_iff.mp h
  dsimp only at h
  split at h
  · obtain ⟨⟨v, left'⟩, hv, h⟩ := Option.bind_eq_some_iff.mp h
    cases h
    exact hvalue hv
  · cases h

theorem yields_readBareValue? {nested : TextReader Value}
    (hnested : nested.Yields Value.WellFormed) :
    (readBareValue? nested).Yields Value.WellFormed := by
  intro cs v rest h
  unfold readBareValue? at h
  split at h
  · cases h
    exact .boolean _
  · cases h
    exact .boolean _
  · split at h
    · exact (yields_readItems (yields_readPair? hnested) _ _).of_map
        (fun _ => wellFormed_dictOf) h
    · exact (yields_readItems hnested _ _).of_map (fun _ => Value.WellFormed.list) h
    · obtain ⟨⟨text, left⟩, -, heq⟩ := Option.map_eq_some_iff.mp h
      cases heq
      exact .text _
    · cases h
      exact .text _
    · cases h
    · cases h
      exact wellFormed_wordValue _

theorem yields_readNestedValue? (fuel : Nat) :
    (readNestedValue? fuel).Yields Value.WellFormed := by
  induction fuel with
  | zero => exact fun cs v rest h => nomatch h
  | succ fuel ih =>
    intro cs v rest h
    obtain ⟨⟨w, left⟩, hw, h⟩ := Option.bind_eq_some_iff.mp h
    cases h
    exact yields_readBareValue? ih hw

theorem wellFormed_readVariableValue (text : String) : (readVariableValue text).WellFormed := by
  rw [readVariableValue]
  split
  · next h => exact yields_readNestedValue? _ h
  · exact .text _

theorem wellFormed_nest {v : Value} (hv : v.WellFormed) (path : List String) :
    (Value.nest path v).WellFormed := by
  induction path with
  | nil => exact hv
  | cons key path ih =>
    exact .dict (List.pairwise_singleton _ _) (List.forall_mem_singleton.mpr ih)

/-- The setting that a variable makes is its value at the end of the path that its name stands for. -/
theorem Variable.exists_path_of_setting? {v : Variable} {d : Dict Value}
    (h : v.setting? = some d) :
    ∃ path, settingPath? v.name = some path ∧
      .dict d = Value.nest path (readVariableValue v.text) := by
  obtain ⟨path, hpath, h⟩ := Option.bind_eq_some_iff.mp h
  cases path with
  | nil => cases h
  | cons key path =>
    cases h
    exact ⟨key :: path, hpath, rfl⟩

theorem wellFormed_setting? {v : Variable} {d : Dict Value} (h : v.setting? = some d) :
    (Value.dict d).WellFormed := by
  obtain ⟨path, -, hdict⟩ := v.exists_path_of_setting? h
  rw [hdict]
  exact wellFormed_nest (wellFormed_readVariableValue v.text) path

/-- What an environment says is well formed. -/
theorem wellFormed_environment_layer (environment : Environment) :
    (Value.dict environment.layer).WellFormed := by
  rw [Environment.layer]
  refine List.foldlRecOn (motive := fun d => (Value.dict d).WellFormed) _ _
    Value.wellFormed_empty fun d hd setting hsetting => ?_
  obtain ⟨v, -, hv⟩ := List.mem_filterMap.mp hsetting
  rw [← Value.merge_dict_dict]
  exact Value.wellFormed_merge hd (wellFormed_setting? hv)

/-! ### Documents -/

namespace Toml

theorem wellFormed_integer? {n : Int} {v : Value} (h : integer? n = some v) : v.WellFormed := by
  rw [integer?] at h
  split at h
  · next hbounds =>
    cases h
    exact .signed hbounds.1 hbounds.2
  · cases h

theorem yields_readBased? : readBased?.Yields Value.WellFormed := by
  intro cs v rest h
  unfold readBased? at h
  split at h
  · obtain ⟨base, -, h⟩ := Option.bind_eq_some_iff.mp h
    obtain ⟨⟨digits, left⟩, -, h⟩ := Option.bind_eq_some_iff.mp h
    obtain ⟨w, hw, h⟩ := Option.bind_eq_some_iff.mp h
    cases h
    exact wellFormed_integer? hw
  · cases h

theorem yields_readDecimal? (negative : Bool) :
    (readDecimal? negative).Yields Value.WellFormed := by
  intro cs v rest h
  obtain ⟨⟨whole, left⟩, -, h⟩ := Option.bind_eq_some_iff.mp h
  obtain ⟨⟨fraction, left⟩, -, h⟩ := Option.bind_eq_some_iff.mp h
  obtain ⟨⟨exponent, left⟩, -, h⟩ := Option.bind_eq_some_iff.mp h
  dsimp only at h
  split at h
  · obtain ⟨w, hw, h⟩ := Option.bind_eq_some_iff.mp h
    cases h
    exact wellFormed_integer? hw
  · split at h
    · cases h
    · cases h
      exact .float _

theorem yields_readSpecial? (negative : Bool) :
    (readSpecial? negative).Yields Value.WellFormed := by
  intro cs v rest h
  unfold readSpecial? at h
  split at h
  · cases h
    exact .float _
  · cases h
    exact .float _
  · cases h

theorem yields_readNumber? : readNumber?.Yields Value.WellFormed := by
  intro cs v rest h
  rw [readNumber?] at h
  split at h
  · next hbased =>
    cases h
    exact yields_readBased? hbased
  · rcases Option.or_eq_some_iff.mp h with hspecial | ⟨-, hdecimal⟩
    · exact yields_readSpecial? _ hspecial
    · exact yields_readDecimal? _ hdecimal

theorem Moment.wellFormed_toValue (m : Moment) : m.toValue.WellFormed := by
  rw [toValue]
  exact .dict (List.pairwise_singleton _ _) (List.forall_mem_singleton.mpr (.text _))

theorem yields_readMomentOrNumber? : readMomentOrNumber?.Yields Value.WellFormed := by
  intro cs v rest h
  rw [readMomentOrNumber?] at h
  split at h
  · next m left hmoment =>
    cases h
    exact m.wellFormed_toValue
  · exact yields_readNumber? h

theorem yields_readAssignment? {value : TextReader Value}
    (hvalue : value.Yields Value.WellFormed) :
    (readAssignment? value).Yields fun a => a.2.WellFormed := by
  intro cs a rest h
  obtain ⟨⟨key, left⟩, -, h⟩ := Option.bind_eq_some_iff.mp h
  dsimp only at h
  split at h
  · obtain ⟨⟨v, left'⟩, hv, h⟩ := Option.bind_eq_some_iff.mp h
    cases h
    exact hvalue hv
  · cases h

theorem yields_readBoolean? : TextReader.Yields readBoolean? Value.WellFormed := by
  intro cs v rest h
  rcases Option.or_eq_some_iff.mp h with h | ⟨-, h⟩
  · obtain ⟨left, -, heq⟩ := Option.map_eq_some_iff.mp h
    cases heq
    exact .boolean _
  · obtain ⟨left, -, heq⟩ := Option.map_eq_some_iff.mp h
    cases heq
    exact .boolean _

theorem yields_readValue? (nesting : Nat) : (readValue? nesting).Yields Value.WellFormed := by
  have hstring : TextReader.Yields readString? fun _ => True := fun _ _ _ _ => trivial
  have htext (text : String) (_ : True) : (Value.text text).WellFormed := .text text
  induction nesting using Nat.strongRecOn with
  | _ nesting ih =>
    intro cs v rest h
    unfold readValue? at h
    split at h
    · exact hstring.of_map htext h
    · exact hstring.of_map htext h
    · exact yields_readBoolean? h
    · exact yields_readBoolean? h
    · split at h
      · cases h
      · exact (yields_readItems (ih _ (Nat.lt_succ_self _)) _ _).of_map
          (fun _ => Value.WellFormed.list) h
    · split at h
      · cases h
      · obtain ⟨⟨assignments, left⟩, hassignments, h⟩ := Option.bind_eq_some_iff.mp h
        obtain ⟨entries, hentries, h⟩ := Option.bind_eq_some_iff.mp h
        cases h
        have hassignment := yields_readAssignment? (ih _ (Nat.lt_succ_self _))
        exact wellFormed_ofAssignments? (yields_readItems hassignment _ _ hassignments) hentries
    · exact yields_readMomentOrNumber? h

/-- The value that a statement sets, if it sets one, is well formed. -/
def Statement.WellFormed : Statement → Prop
  | assignment _ v => v.WellFormed
  | _ => True

theorem yields_readStatement? : readStatement?.Yields Statement.WellFormed := by
  intro cs statement rest h
  unfold readStatement? at h
  split at h
  · obtain ⟨⟨key, left⟩, -, heq⟩ := Option.map_eq_some_iff.mp h
    cases heq
    trivial
  · obtain ⟨⟨key, left⟩, -, heq⟩ := Option.map_eq_some_iff.mp h
    cases heq
    trivial
  · obtain ⟨⟨⟨key, v⟩, left⟩, hv, heq⟩ := Option.map_eq_some_iff.mp h
    cases heq
    exact yields_readAssignment? (yields_readValue? maxNesting) hv

theorem wellFormed_readStatements? {cs : List Char} {statements : List Statement}
    (h : readStatements? cs = some statements) : ∀ s ∈ statements, s.WellFormed := by
  induction hn : cs.length using Nat.strongRecOn generalizing cs statements with
  | _ n ih =>
    rw [readStatements?] at h
    obtain ⟨front, -, h⟩ := Option.bind_eq_some_iff.mp h
    split at h
    · cases h
      exact List.forall_mem_nil _
    · obtain ⟨⟨statement, left⟩, hstatement, h⟩ := Option.bind_eq_some_iff.mp h
      obtain ⟨line, -, h⟩ := Option.bind_eq_some_iff.mp h
      split at h
      · next hshorter =>
        obtain ⟨later, hlater, h⟩ := Option.bind_eq_some_iff.mp h
        cases h
        exact List.forall_mem_cons.mpr
          ⟨yields_readStatement? hstatement, ih _ (hn ▸ hshorter) hlater rfl⟩
      · cases h

theorem wellFormed_step? {statement : Statement} (hstatement : statement.WellFormed)
    {p p' : Progress} (h : TableWellFormed p.root) (hstep : p.step? statement = some p') :
    TableWellFormed p'.root := by
  cases statement with
  | table key =>
    obtain ⟨last, -, hstep⟩ := Option.bind_eq_some_iff.mp hstep
    obtain ⟨root, hroot, hstep⟩ := Option.bind_eq_some_iff.mp hstep
    cases hstep
    exact wellFormed_openTable? h hroot
  | element key =>
    obtain ⟨last, -, hstep⟩ := Option.bind_eq_some_iff.mp hstep
    obtain ⟨root, hroot, hstep⟩ := Option.bind_eq_some_iff.mp hstep
    cases hstep
    exact wellFormed_openElement? h hroot
  | assignment key v =>
    obtain ⟨root, hroot, hstep⟩ := Option.bind_eq_some_iff.mp hstep
    cases hstep
    exact wellFormed_within?
      (fun inner inner' hinner hassign => wellFormed_assignKey? hstatement hinner hassign) h hroot

theorem wellFormed_ofStatements? {statements : List Statement}
    (h : ∀ s ∈ statements, s.WellFormed) {entries : Dict Value}
    (hof : ofStatements? statements = some entries) : (Value.dict entries).WellFormed := by
  obtain ⟨p, hp, rfl⟩ := Option.map_eq_some_iff.mp hof
  have hroot : TableWellFormed p.root := of_foldlM_eq_some
    (P := fun p : Progress => TableWellFormed p.root)
    (fun s hs _ _ hwf hstep => wellFormed_step? (h s hs) hwf hstep) tableWellFormed_empty hp
  exact hroot.close

theorem wellFormed_ofText? {text : String} {entries : Dict Value}
    (h : ofText? text = some entries) : (Value.dict entries).WellFormed := by
  obtain ⟨cs, -, h⟩ := Option.bind_eq_some_iff.mp h
  obtain ⟨statements, hstatements, h⟩ := Option.bind_eq_some_iff.mp h
  exact wellFormed_ofStatements? (wellFormed_readStatements? hstatements) h

end Toml

end ChatDice
