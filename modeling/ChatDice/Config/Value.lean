/-
Configuration values before they are checked.

A `Value` is what a configuration file or a variable of the environment says, of
whatever kind. `Value.merge` lays a later value over an earlier one: dictionaries are
merged entry by entry, and anything else is replaced. Nothing is checked before all
layers are merged, so a bad value that a later layer replaces does no harm.
-/
import ChatDice.Config.Dict
import ChatDice.Decimal.Shortest
import ChatDice.Text.Quoted

namespace ChatDice

/-- A configuration value of any kind. -/
inductive Value where
  | boolean (b : Bool)
  /-- A whole number from a source that has signed numbers only, or a negative one. -/
  | signed (n : Int)
  /-- A whole number from a source that tells unsigned numbers apart. -/
  | unsigned (n : Nat)
  | float (x : Float)
  | text (s : String)
  | list (items : List Value)
  | dict (entries : List (String × Value))

namespace Value

mutual

/-- Lay a later value over an earlier one. -/
def merge (earlier : Value) : (later : Value) → Value
  | .dict new =>
    match earlier with
    | .dict old => .dict (mergeEntries old new)
    | _ => .dict new
  | later => later

/-- Lay the entries of a later dictionary over those of an earlier one. -/
def mergeEntries (old : List (String × Value)) : (new : List (String × Value)) →
    List (String × Value)
  | [] => old
  | (key, v) :: rest =>
    mergeEntries (Dict.alter key (fun
      | some earlier => merge earlier v
      | none => v) old) rest

end

/-- The dictionary with one value at the end of a path of keys. -/
def nest (path : List String) (v : Value) : Value :=
  path.foldr (fun key inner => .dict [(key, inner)]) v

/-- How a message names a value. -/
def found : Value → String
  | boolean b => "bool " ++ (if b then "true" else "false")
  | signed n => "signed int `" ++ n.repr ++ "`"
  | unsigned n => "unsigned int `" ++ n.repr ++ "`"
  | float x => "float `" ++ floatText x ++ "`"
  | text s => "string " ++ quoted s
  | list _ => "sequence"
  | dict _ => "map"

end Value

end ChatDice
