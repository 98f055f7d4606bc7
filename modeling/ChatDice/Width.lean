/-
The ends of the ranges of numbers that are 32 or 64 bits wide.
-/
namespace ChatDice

/-- The largest number of 32 bits. -/
def greatestUInt32 : Nat := 0xffffffff

/-- The largest number of 64 bits. -/
def greatestUInt64 : Nat := 0xffffffffffffffff

/-- The largest number of 64 bits of which one is the sign. -/
def greatestInt64 : Nat := 0x7fffffffffffffff

/-- The smallest number of 64 bits of which one is the sign. -/
def leastInt64 : Int := -0x8000000000000000

end ChatDice
