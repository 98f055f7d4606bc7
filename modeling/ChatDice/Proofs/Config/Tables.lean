/-
Tables of a TOML document stay well formed while they are built.

* **`Toml.Node.WellFormed`** — the tables below a node are in the order of their keys, and the
  values are well formed;
* **`Toml.Node.wellFormed_close`** — such a node ends as a well formed value;
* **`Toml.wellFormed_descend?`** — a change at the end of a path keeps tables well formed, if it
  does so at its place;
* **`Toml.wellFormed_openTable?`**, **`Toml.wellFormed_openElement?`**,
  **`Toml.wellFormed_within?`**, **`Toml.wellFormed_assignKey?`** — what headers and assignments
  do;
* **`Toml.wellFormed_ofAssignments?`** — a table that holds nothing but assignments.
-/
import ChatDice.Config.Toml.Table
import ChatDice.Proofs.Config.Merge

namespace ChatDice.Toml

/-- The tables below a node are in the order of their keys, and the values in them are well
formed. -/
inductive Node.WellFormed : Node → Prop
  | value {v : Value} (value_wellFormed : v.WellFormed) : WellFormed (value v)
  | table {made : Made} {entries : List (String × Node)} (sorted : Dict.Sorted entries)
      (entries_wellFormed : ∀ e ∈ entries, WellFormed e.2) : WellFormed (table made entries)
  | tables {closed : List Value} {last : List (String × Node)}
      (closed_wellFormed : ∀ v ∈ closed, v.WellFormed) (sorted : Dict.Sorted last)
      (last_wellFormed : ∀ e ∈ last, WellFormed e.2) : WellFormed (tables closed last)

/-- The entries of a well formed table. -/
structure TableWellFormed (entries : Dict Node) : Prop where
  sorted : entries.Sorted
  nodes : ∀ e ∈ entries, e.2.WellFormed

theorem tableWellFormed_empty : TableWellFormed [] :=
  ⟨List.Pairwise.nil, List.forall_mem_nil _⟩

theorem Node.WellFormed.table_entries {made : Made} {entries : List (String × Node)}
    (h : (Node.table made entries).WellFormed) : TableWellFormed entries := by
  cases h with
  | table hsorted hentries => exact ⟨hsorted, hentries⟩

theorem TableWellFormed.toTable {entries : Dict Node} (h : TableWellFormed entries) (made : Made) :
    (Node.table made entries).WellFormed :=
  .table h.sorted h.nodes

/-! ### Ends -/

theorem closeEntries_eq_map (entries : List (String × Node)) :
    closeEntries entries = entries.map fun e => (e.1, e.2.close) := by
  induction entries with
  | nil => rfl
  | cons e entries ih => rw [closeEntries, ih, List.map_cons]

theorem sorted_closeEntries {entries : Dict Node} (h : entries.Sorted) :
    Dict.Sorted (closeEntries entries) := by
  rw [closeEntries_eq_map]
  exact List.pairwise_map.mpr h

/-- A well formed node ends as a well formed value. -/
theorem Node.wellFormed_close {node : Node} (h : node.WellFormed) : node.close.WellFormed := by
  have hclosed {entries : List (String × Node)} (hsorted : Dict.Sorted entries)
      (hentries : ∀ e ∈ entries, e.2.close.WellFormed) :
      (Value.dict (closeEntries entries)).WellFormed := by
    refine .dict (sorted_closeEntries hsorted) ?_
    rw [closeEntries_eq_map]
    exact List.forall_mem_map.mpr hentries
  induction h with
  | value hv => rwa [close]
  | table hsorted _ ih =>
    rw [close]
    exact hclosed hsorted ih
  | tables hvalues hsorted _ ih =>
    rw [close]
    refine .list (List.forall_mem_append.mpr ⟨hvalues, ?_⟩)
    exact List.forall_mem_singleton.mpr (hclosed hsorted ih)

theorem TableWellFormed.close {entries : Dict Node} (h : TableWellFormed entries) :
    (Value.dict (closeEntries entries)).WellFormed := by
  have hclosed := Node.wellFormed_close (h.toTable .header)
  rwa [Node.close] at hclosed

/-! ### Changes -/

/-- A change of one entry keeps a table well formed, if what it makes of well formed nodes is well
formed. -/
theorem TableWellFormed.alter? {entries entries' : Dict Node} (h : TableWellFormed entries)
    {key : String} {change : Option Node → Option Node}
    (hchange : ∀ old? node, (∀ old ∈ old?, old.WellFormed) → change old? = some node →
      node.WellFormed)
    (halter : entries.alter? key change = some entries') : TableWellFormed entries' := by
  refine ⟨h.sorted.alter? halter, fun e he => ?_⟩
  rcases Dict.mem_of_mem_alter? halter he with hold | ⟨-, old?, hnode, hmem⟩
  · exact h.nodes e hold
  · exact hchange old? e.2 (fun old hold => h.nodes _ (hmem old hold)) hnode

/-- A change at the end of a path keeps tables well formed, if it does so at its place. -/
theorem wellFormed_descend? {make made : Made} {change : Made → Dict Node → Option (Dict Node)}
    (hchange : ∀ made inner inner', TableWellFormed inner → change made inner = some inner' →
      TableWellFormed inner')
    {path : List String} {entries entries' : Dict Node} (h : TableWellFormed entries)
    (hdescend : descend? make change path made entries = some entries') :
    TableWellFormed entries' := by
  induction path generalizing made entries entries' with
  | nil => exact hchange made entries entries' h hdescend
  | cons key path ih =>
    refine h.alter? (fun old? node hold hnode => ?_) hdescend
    -- a missing table is made; a value cannot be entered; of an array of tables the last is entered
    rcases old? with _ | v | ⟨made, inner⟩ | ⟨closed, last⟩
    · obtain ⟨inner', hinner', rfl⟩ := Option.map_eq_some_iff.mp hnode
      exact (ih tableWellFormed_empty hinner').toTable make
    · cases hnode
    · dsimp only at hnode
      split at hnode
      · cases hnode
      · obtain ⟨inner', hinner', rfl⟩ := Option.map_eq_some_iff.mp hnode
        exact (ih (hold _ rfl).table_entries hinner').toTable made
    · obtain ⟨last', hlast', rfl⟩ := Option.map_eq_some_iff.mp hnode
      cases hold _ rfl with
      | tables hclosed hsorted hlast =>
        have hwf := ih ⟨hsorted, hlast⟩ hlast'
        exact .tables hclosed hwf.sorted hwf.nodes

theorem wellFormed_add? {key : String} {v : Value} (hv : v.WellFormed)
    {entries entries' : Dict Node} (h : TableWellFormed entries)
    (hadd : entries.add? key (.value v) = some entries') : TableWellFormed entries' := by
  refine h.alter? (fun old? node _ hnode => ?_) hadd
  cases old? with
  | none =>
    cases hnode
    exact .value hv
  | some old => cases hnode

theorem wellFormed_assign? {tables : List String} {key : String} {v : Value} (hv : v.WellFormed)
    {entries entries' : Dict Node} (h : TableWellFormed entries)
    (hassign : assign? tables key v entries = some entries') : TableWellFormed entries' := by
  rw [assign?] at hassign
  split at hassign
  · exact wellFormed_add? hv h hassign
  · refine wellFormed_descend? (fun made inner inner' hinner hchange => ?_) h hassign
    split at hchange
    · exact wellFormed_add? hv hinner hchange
    · cases hchange

theorem wellFormed_assignKey? {key : List String} {v : Value} (hv : v.WellFormed)
    {entries entries' : Dict Node} (h : TableWellFormed entries)
    (hassign : assignKey? key v entries = some entries') : TableWellFormed entries' := by
  obtain ⟨last, -, hassign⟩ := Option.bind_eq_some_iff.mp hassign
  exact wellFormed_assign? hv h hassign

theorem wellFormed_openTable? {tables : List String} {key : String} {root root' : Dict Node}
    (h : TableWellFormed root) (hopen : openTable? tables key root = some root') :
    TableWellFormed root' := by
  refine wellFormed_descend? (fun made inner inner' hinner hchange => ?_) h hopen
  refine hinner.alter? (fun old? node hold hnode => ?_) hchange
  split at hnode
  · cases hnode
    exact tableWellFormed_empty.toTable .header
  · cases hnode
    exact (hold _ rfl).table_entries.toTable .header
  · cases hnode

theorem wellFormed_openElement? {tables : List String} {key : String} {root root' : Dict Node}
    (h : TableWellFormed root) (hopen : openElement? tables key root = some root') :
    TableWellFormed root' := by
  refine wellFormed_descend? (fun made inner inner' hinner hchange => ?_) h hopen
  refine hinner.alter? (fun old? node hold hnode => ?_) hchange
  split at hnode
  · cases hnode
    exact .tables (List.forall_mem_nil _) List.Pairwise.nil (List.forall_mem_nil _)
  · cases hnode
    cases hold _ rfl with
    | tables hclosed hsorted hlast =>
      -- the element that was last is closed
      refine .tables (List.forall_mem_append.mpr ⟨hclosed, ?_⟩) List.Pairwise.nil nofun
      exact List.forall_mem_singleton.mpr (TableWellFormed.close ⟨hsorted, hlast⟩)
  · cases hnode

theorem wellFormed_within? {path : List String} {change : Dict Node → Option (Dict Node)}
    (hchange : ∀ inner inner', TableWellFormed inner → change inner = some inner' →
      TableWellFormed inner')
    {root root' : Dict Node} (h : TableWellFormed root)
    (hwithin : within? path change root = some root') : TableWellFormed root' :=
  wellFormed_descend? (fun _ => hchange) h hwithin

/-! ### Series of changes -/

/-- What each of several steps preserves, they preserve together. -/
theorem of_foldlM_eq_some {σ β : Type} {P : σ → Prop} {step : σ → β → Option σ} {inputs : List β}
    (hstep : ∀ b ∈ inputs, ∀ s s', P s → step s b = some s' → P s') {s s' : σ} (hs : P s)
    (h : inputs.foldlM step s = some s') : P s' := by
  induction inputs generalizing s with
  | nil =>
    cases h
    exact hs
  | cons b inputs ih =>
    rw [List.foldlM_cons] at h
    obtain ⟨next, hnext, h⟩ := Option.bind_eq_some_iff.mp h
    exact ih (fun b' hb' => hstep b' (List.mem_cons_of_mem _ hb'))
      (hstep b List.mem_cons_self s next hs hnext) h

theorem wellFormed_ofAssignments? {assignments : List (List String × Value)}
    (h : ∀ a ∈ assignments, a.2.WellFormed) {entries : Dict Value}
    (hof : ofAssignments? assignments = some entries) : (Value.dict entries).WellFormed := by
  obtain ⟨nodes, hnodes, rfl⟩ := Option.map_eq_some_iff.mp hof
  have hwf : TableWellFormed nodes := of_foldlM_eq_some
    (fun a ha inner inner' hinner hassign => wellFormed_assignKey? (h a ha) hinner hassign)
    tableWellFormed_empty hnodes
  exact hwf.close

end ChatDice.Toml
