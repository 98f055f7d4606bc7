/-
Drawing the face of a die from a source of random words.

A `WordSource` yields one 32-bit word after another. `draw` turns words into a face
by multiplying: the high half of `word * sides` is the face, counted from zero, and
the low half is what is left over. Most words settle the face by themselves. If what
is left over is so large that a finer word might carry into the high half, `draw`
takes one further word, so it takes one word or two and never loops.
-/
namespace ChatDice

/-- A state that yields a word and the state behind it. -/
class WordSource (G : Type) where
  next : G → UInt32 × G

def wordCount : Nat := 0x100000000

def nextWord {G : Type} [WordSource G] : StateM G UInt32 := fun source =>
  WordSource.next source

/-- The face that a word points at, counted from zero. -/
def highPart (sides : Nat) (word : UInt32) : Nat :=
  word.toNat * sides / wordCount

/-- How far a word points beyond the beginning of its face. -/
def lowPart (sides : Nat) (word : UInt32) : Nat :=
  word.toNat * sides % wordCount

/-- Whether a second word could still move the face up by one. -/
def isUndecided (sides : Nat) (word : UInt32) : Bool :=
  wordCount - sides < lowPart sides word

/-- What a second word adds to the face. -/
def carry (sides : Nat) (first second : UInt32) : Nat :=
  if wordCount ≤ lowPart sides first + highPart sides second then 1 else 0

/-- Draw a face of a die with at least one side; faces count from one. -/
def draw {G : Type} [WordSource G] (sides : Nat) : StateM G Nat := do
  let first ← nextWord
  if isUndecided sides first then
    let second ← nextWord
    return 1 + highPart sides first + carry sides first second
  else
    return 1 + highPart sides first

end ChatDice
