import CoreBench.Random.Keystream

/-!
Keys from seeds of 64 bits: each word of the key is a permuted output of a linear congruential generator of 64
bits that starts from the seed.
-/

namespace CoreBench.Random

/-- The state of the generator after one step. -/
def seedStep (state : UInt64) : UInt64 :=
  state * 6364136223846793005 + 11634580027462260723

/-- A word turned to the right by some bits, fewer than 32. -/
def turnRight (x n : UInt32) : UInt32 :=
  (x >>> n) ||| (x <<< ((32 - n) % 32))

/-- The word that a state gives: bits from its middle, turned as its highest bits say. -/
def seedWord (state : UInt64) : UInt32 :=
  turnRight (((state >>> 18) ^^^ state) >>> 27).toUInt32 (state >>> 59).toUInt32

/-- The state after several steps. -/
def seedState (seed : UInt64) : Nat → UInt64
  | 0 => seed
  | n + 1 => seedStep (seedState seed n)

/-- The key of a seed. -/
def keyOfSeed (seed : UInt64) : Key :=
  Vector.ofFn fun i => seedWord (seedState seed (i.val + 1))

/-- The keystream of a seed. -/
def Keystream.ofSeed (seed : UInt64) : Keystream :=
  .ofKey (keyOfSeed seed)

end CoreBench.Random
