/-
A source of words that are written down beforehand.

A `Script` yields the words of a list in order and starts over when they are used
up. It counts the words it has yielded, which tells how many words a roll takes.
-/
import ChatDice.Random.Source

namespace ChatDice

/-- A list of words to be yielded over and over. -/
structure Script where
  words : Array UInt32
  nonempty : 0 < words.size
  /-- How many words have been taken so far. -/
  used : Nat

namespace Script

/-- The script of a list of words, unless the list is empty. -/
def ofList? (words : List UInt32) : Option Script :=
  if h : 0 < words.toArray.size then some ⟨words.toArray, h, 0⟩ else none

/-- The word that a script yields next. -/
def word (s : Script) : UInt32 :=
  have := Nat.mod_lt s.used s.nonempty
  s.words[s.used % s.words.size]

instance : WordSource Script where
  next s := (s.word, { s with used := s.used + 1 })

end Script

end ChatDice
