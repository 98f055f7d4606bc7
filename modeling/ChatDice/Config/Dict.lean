/-
Dictionaries as lists of entries in the order of their keys.

A `Dict` holds at most one entry per key, sorted by the code points of the keys; the
operations here keep it so. Two dictionaries with the same entries are thus equal, and
whatever looks at all entries sees them in one fixed order.
-/
namespace ChatDice

/-- Entries in the order of their keys. -/
abbrev Dict (α : Type) := List (String × α)

namespace Dict

variable {α : Type}

def get? (key : String) : Dict α → Option α
  | [] => none
  | (k, a) :: rest => if k = key then some a else get? key rest

/-- Replace the entry of a key by what `change` makes of it. -/
def alter (key : String) (change : Option α → α) : Dict α → Dict α
  | [] => [(key, change none)]
  | (k, a) :: rest =>
    if key = k then (k, change (some a)) :: rest
    else if key < k then (key, change none) :: (k, a) :: rest
    else (k, a) :: alter key change rest

/-- Replace the entry of a key by what `change` makes of it, unless `change` refuses. -/
def alter? (key : String) (change : Option α → Option α) : Dict α → Option (Dict α)
  | [] => (change none).map fun a => [(key, a)]
  | (k, a) :: rest =>
    if key = k then (change (some a)).map fun b => (k, b) :: rest
    else if key < k then (change none).map fun b => (key, b) :: (k, a) :: rest
    else (alter? key change rest).map ((k, a) :: ·)

def insert (key : String) (a : α) (d : Dict α) : Dict α :=
  d.alter key fun _ => a

/-- Add an entry for a key that has none. -/
def add? (key : String) (a : α) (d : Dict α) : Option (Dict α) :=
  d.alter? key fun
    | none => some a
    | some _ => none

end Dict

end ChatDice
