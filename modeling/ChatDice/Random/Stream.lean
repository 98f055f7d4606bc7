/-
The seeded stream of random words: ChaCha with twelve rounds.

* **`Key.ofSeed`** — stretches a 64-bit seed to the eight words of a key, each the
  rotated output of a linear congruential generator;
* **`Key.block`** — the sixteen words that a key gives for one value of the block
  counter;
* **`Stream`** — the words of the blocks 0, 1, 2, … one after another.

Design notes: a stream carries the block it is reading, so that a word costs a
sixteenth of a block. The field is no further state, since `block_eq` ties it to
the key and the counter.
-/
import ChatDice.Random.Source

namespace ChatDice

/-! ### Keys -/

/-- The eight words that a stream of random words is determined by. -/
abbrev Key := Vector UInt32 8

def rotateRight (x : UInt32) (n : UInt32) : UInt32 :=
  x >>> n ||| x <<< (32 - n)

def rotateLeft (x : UInt32) (n : UInt32) : UInt32 :=
  x <<< n ||| x >>> (32 - n)

/-- One step of the linear congruential generator that stretches seeds. -/
def stretchStep (state : UInt64) : UInt64 :=
  state * 6364136223846793005 + 11634580027462260723

/-- The word that stands for a state of the stretching generator: the bits in the
middle, rotated by an amount that the topmost bits choose. -/
def stretchWord (state : UInt64) : UInt32 :=
  rotateRight (((state >>> 18) ^^^ state) >>> 27).toUInt32 (state >>> 59).toUInt32

/-- The state of the stretching generator after `n` steps. -/
def stretchState (seed : UInt64) : Nat → UInt64
  | 0 => seed
  | n + 1 => stretchStep (stretchState seed n)

def Key.ofSeed (seed : UInt64) : Key :=
  Vector.ofFn fun i => stretchWord (stretchState seed (i.val + 1))

/-! ### Blocks -/

/-- The sixteen words that the rounds work on. -/
abbrev Block := Vector UInt32 16

/-- Mix four words of a block. -/
def Block.quarterRound (a b c d : Fin 16) (block : Block) : Block :=
  let step (x y z : Fin 16) (n : UInt32) (block : Block) : Block :=
    let block := block.set x (block[x] + block[y])
    block.set z (rotateLeft (block[z] ^^^ block[x]) n)
  step c d b 7 (step a b d 8 (step c d b 12 (step a b d 16 block)))

/-- Mix the columns of a block, then its diagonals. -/
def Block.doubleRound (block : Block) : Block :=
  let columns := block
    |> Block.quarterRound 0 4 8 12 |> Block.quarterRound 1 5 9 13
    |> Block.quarterRound 2 6 10 14 |> Block.quarterRound 3 7 11 15
  columns
    |> Block.quarterRound 0 5 10 15 |> Block.quarterRound 1 6 11 12
    |> Block.quarterRound 2 7 8 13 |> Block.quarterRound 3 4 9 14

/-- The number of double rounds, each of which counts as two rounds. -/
def doubleRounds : Nat := 6

/-- The block that the rounds start from: four constant words, the key, the block
counter in two words, and two words of zero. -/
def Key.start (key : Key) (counter : UInt64) : Block :=
  #v[0x61707865, 0x3320646e, 0x79622d32, 0x6b206574,
    key[0], key[1], key[2], key[3], key[4], key[5], key[6], key[7],
    counter.toUInt32, (counter >>> 32).toUInt32, 0, 0]

/-- The words of one block: the start, mixed and added to itself. -/
def Key.block (key : Key) (counter : UInt64) : Block :=
  let start := key.start counter
  Vector.zipWith (· + ·) (doubleRounds.repeat Block.doubleRound start) start

/-! ### Streams -/

/-- A place in the stream of words of a key: the next word is number `offset` of the
block for `counter`. -/
structure Stream where
  key : Key
  counter : UInt64
  offset : Fin 16
  block : Block
  block_eq : block = key.block counter

namespace Stream

def ofKey (key : Key) : Stream where
  key := key
  counter := 0
  offset := 0
  block := key.block 0
  block_eq := rfl

def ofSeed (seed : UInt64) : Stream :=
  ofKey (Key.ofSeed seed)

def advance (s : Stream) : Stream :=
  if h : s.offset.val + 1 < 16 then { s with offset := ⟨s.offset.val + 1, h⟩ }
  else
    { key := s.key, counter := s.counter + 1, offset := 0,
      block := s.key.block (s.counter + 1), block_eq := rfl }

instance : WordSource Stream where
  next s := (s.block[s.offset], s.advance)

end Stream

end ChatDice
