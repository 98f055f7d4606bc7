/-
Tables of a TOML document while it is being read.

A table may be given in pieces, but not in all ways: what a header has opened cannot
be opened again, nor be extended by a dotted key, and a value once set stays. A `Node`
therefore remembers how its table came about.

* **`assign?`** — sets the value of a key, with the tables that a dotted key implies;
* **`openTable?`, `openElement?`** — what a header and a header of an array of tables do;
* **`within?`** — applies a change inside the table that the last header has opened.
-/
import ChatDice.Config.Value

namespace ChatDice.Toml

/-- How a table came about. -/
inductive Made where
  /-- A header names it, or it is an element of an array of tables. -/
  | header
  /-- It lies on the way to a table that a header names. -/
  | path
  /-- A dotted key implies it. -/
  | dotted
  deriving DecidableEq

/-- What stands behind a key of a table. -/
inductive Node where
  /-- A value, to which nothing can be added. -/
  | value (v : Value)
  | table (made : Made) (entries : List (String × Node))
  /-- An array of tables, of which only the last can still be added to. -/
  | tables (closed : List Value) (last : List (String × Node))

/-! ### Values -/

mutual

/-- The value that a node has when the document ends. -/
def Node.close : Node → Value
  | .value v => v
  | .table _ entries => .dict (closeEntries entries)
  | .tables closed last => .list (closed ++ [.dict (closeEntries last)])

/-- The entries that a table has when the document ends. -/
def closeEntries : List (String × Node) → List (String × Value)
  | [] => []
  | (key, node) :: rest => (key, node.close) :: closeEntries rest

end

/-! ### Changes -/

/-- Change the table at the end of a path. Tables that are missing on the way are made,
and `make` says how they come about. A dotted key leads through no table that a header
has opened. -/
def descend? (make : Made) (change : Made → Dict Node → Option (Dict Node)) :
    (path : List String) → (made : Made) → Dict Node → Option (Dict Node)
  | [], made, entries => change made entries
  | key :: path, _, entries =>
    entries.alter? key fun
      | none => (descend? make change path make []).map (.table make)
      | some (.value _) => none
      | some (.table made inner) =>
        if make = .dotted ∧ made = .header then none
        else (descend? make change path made inner).map (.table made)
      | some (.tables closed last) =>
        (descend? make change path .header last).map (.tables closed)

/-- Set the value of a key that is given by the tables it lies in and its last part. A
dotted key adds only to tables that dotted keys have made. -/
def assign? (tables : List String) (key : String) (v : Value) (entries : Dict Node) :
    Option (Dict Node) :=
  if tables.isEmpty then entries.add? key (.value v)
  else
    descend? .dotted (fun made inner => if made = .dotted then inner.add? key (.value v) else none)
      tables .header entries

/-- Open the table that a header names. -/
def openTable? (tables : List String) (key : String) (root : Dict Node) : Option (Dict Node) :=
  descend? .path (fun _ entries => entries.alter? key fun
    | none => some (.table .header [])
    | some (.table .path inner) => some (.table .header inner)
    | some _ => none) tables .header root

/-- Open a new element of the array of tables that a header names. -/
def openElement? (tables : List String) (key : String) (root : Dict Node) : Option (Dict Node) :=
  descend? .path (fun _ entries => entries.alter? key fun
    | none => some (.tables [] [])
    | some (.tables closed last) => some (.tables (closed ++ [.dict (closeEntries last)]) [])
    | some _ => none) tables .header root

/-- Apply a change inside the table that a header has opened. -/
def within? (path : List String) (change : Dict Node → Option (Dict Node)) (root : Dict Node) :
    Option (Dict Node) :=
  descend? .path (fun _ entries => change entries) path .header root

/-! ### Keys -/

/-- Set the value of a key of one or more parts. -/
def assignKey? (key : List String) (v : Value) (entries : Dict Node) : Option (Dict Node) :=
  key.getLast?.bind fun last => assign? key.dropLast last v entries

/-- The entries of a table that holds nothing but the given assignments. -/
def ofAssignments? (assignments : List (List String × Value)) : Option (Dict Value) :=
  (assignments.foldlM (fun entries (key, v) => assignKey? key v entries) []).map closeEntries

end ChatDice.Toml
