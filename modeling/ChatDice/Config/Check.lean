/-
Checking configuration values.

`Settings.ofDict` turns the merged layers into settings. It looks at the entries in the
order of their keys and reports the first value that is of no use, with the path that
leads to it; entries that are no settings are passed over.
-/
import ChatDice.Config.Value
import ChatDice.Chat.Settings

namespace ChatDice

/-! ### Mismatches -/

inductive ExpectedKind where
  | seed
  | text
  | boolean
  | channels
  | autoRoll
  deriving DecidableEq

/-- How a message names the kind of value that a setting has. -/
def ExpectedKind.message : ExpectedKind → String
  | seed => "u64"
  | text => "a string"
  | boolean => "a boolean"
  | channels => "a map"
  | autoRoll => "struct AutoRollConfig"

inductive MismatchKind where
  /-- It is of another kind than the setting. -/
  | type
  /-- It is of the right kind, but out of range. -/
  | value
  deriving DecidableEq

/-- A value that a setting cannot have. -/
structure Mismatch where
  kind : MismatchKind
  found : Value
  expected : ExpectedKind
  /-- The keys that lead to the value. -/
  path : List String

namespace Mismatch

def message (m : Mismatch) : String :=
  let subject := match m.kind with
    | .type => "invalid type: found "
    | .value => "invalid value "
  subject ++ m.found.found ++ ", expected " ++ m.expected.message

/-- The same mismatch seen from the dictionary that a key lies in. -/
def below (key : String) (m : Mismatch) : Mismatch :=
  { m with path := key :: m.path }

end Mismatch

/-- A result, or the first mismatch. -/
abbrev Checked (α : Type) := Except Mismatch α

/-- Report a value of the wrong kind. -/
def wrongType {α : Type} (v : Value) (expected : ExpectedKind) : Checked α :=
  .error ⟨.type, v, expected, []⟩

/-- Check the value of a key; a mismatch is reported with the key. -/
def atKey {α : Type} (key : String) (result : Checked α) : Checked α :=
  result.mapError (Mismatch.below key)

/-! ### Single settings -/

def checkBoolean : Value → Checked Bool
  | .boolean b => .ok b
  | v => wrongType v .boolean

def checkText : Value → Checked String
  | .text s => .ok s
  | v => wrongType v .text

/-- Check a seed, a whole number that fits in 64 unsigned bits. -/
def checkSeed : Value → Checked UInt64
  | .signed n =>
    if n < 0 then .error ⟨.value, .signed n, .seed, []⟩ else .ok (UInt64.ofNat n.toNat)
  | .unsigned n => .ok (UInt64.ofNat n)
  | v => wrongType v .seed

def checkChannelEntries : Dict Value → Checked (List (String × Bool))
  | [] => .ok []
  | (name, v) :: rest => do
    let enabled ← atKey name (checkBoolean v)
    let entries ← checkChannelEntries rest
    return (name, enabled) :: entries

def checkChannels : Value → Checked (List (String × Bool))
  | .dict entries => checkChannelEntries entries
  | v => wrongType v .channels

/-! ### Groups of settings -/

def AutoRoll.checkEntry (switches : AutoRoll) (key : String) (v : Value) : Checked AutoRoll :=
  match key with
  | "channels" => return { switches with channels := ← atKey key (checkChannels v) }
  | "default" => return { switches with byDefault := ← atKey key (checkBoolean v) }
  | "private" => return { switches with direct := ← atKey key (checkBoolean v) }
  | _ => return switches

/-- Check the scan switches when they are given as a list: first the default, then the
switch for conversations with one person, then the channels. -/
def AutoRoll.checkItems (switches : AutoRoll) : List Value → Checked AutoRoll
  | [] => return switches
  | [d] => return { switches with byDefault := ← atKey "0" (checkBoolean d) }
  | [d, p] => return { switches with
      byDefault := ← atKey "0" (checkBoolean d)
      direct := ← atKey "1" (checkBoolean p) }
  | d :: p :: c :: _ => return {
      byDefault := ← atKey "0" (checkBoolean d)
      direct := ← atKey "1" (checkBoolean p)
      channels := ← atKey "2" (checkChannels c) }

/-- Check the scan switches. Where one is missing, it is off. -/
def checkAutoRoll : Value → Checked AutoRoll
  | .dict entries =>
    entries.foldlM (fun switches (key, v) => switches.checkEntry key v) Settings.default.autoRoll
  | .list items => Settings.default.autoRoll.checkItems items
  | v => wrongType v .autoRoll

def Settings.checkEntry (settings : Settings) (key : String) (v : Value) : Checked Settings :=
  match key with
  | "auto_roll" => return { settings with autoRoll := ← atKey key (checkAutoRoll v) }
  | "command_prefix" => return { settings with commandPrefix := ← atKey key (checkText v) }
  | "seed" => return { settings with seed := some (← atKey key (checkSeed v)) }
  | _ => return settings

/-- The settings that a dictionary gives. -/
def Settings.ofDict (entries : Dict Value) : Checked Settings :=
  entries.foldlM (fun settings (key, v) => settings.checkEntry key v) Settings.default

end ChatDice
