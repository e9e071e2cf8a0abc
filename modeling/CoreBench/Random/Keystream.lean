/-!
Random words from a ChaCha keystream of 12 rounds. A key of 256 bits and a counter of 64 bits fill a square of
16 words with four constants and a stream number, which is 0 here; the rounds stir the square, and the sum
of the stirred and the plain square is one block of the stream.
-/

namespace CoreBench.Random

/-- The square of words that a block is computed from. -/
abbrev Square := Vector UInt32 16

/-- A key of 256 bits, as words. -/
abbrev Key := Vector UInt32 8

/-- A word turned to the left by some bits, fewer than 32 and not 0. -/
def turnLeft (x n : UInt32) : UInt32 :=
  (x <<< n) ||| (x >>> (32 - n))

/-- One step of stirring: `x` is added to, and `z` is changed by the sum and turned. -/
def stirStep (s : Square) (x y z : Fin 16) (n : UInt32) : Square :=
  let sum := s[x] + s[y]
  (s.set x sum).set z (turnLeft (s[z] ^^^ sum) n)

/-- Four places stirred, each step with the turn that belongs to it. -/
def quarterRound (s : Square) (a b c d : Fin 16) : Square :=
  let s := stirStep s a b d 16
  let s := stirStep s c d b 12
  let s := stirStep s a b d 8
  stirStep s c d b 7

/-- Two rounds: one along the columns and one along the diagonals. -/
def doubleRound (s : Square) : Square :=
  let s := quarterRound s 0 4 8 12
  let s := quarterRound s 1 5 9 13
  let s := quarterRound s 2 6 10 14
  let s := quarterRound s 3 7 11 15
  let s := quarterRound s 0 5 10 15
  let s := quarterRound s 1 6 11 12
  let s := quarterRound s 2 7 8 13
  quarterRound s 3 4 9 14

/-- Several double rounds. -/
def doubleRounds : Nat → Square → Square
  | 0, s => s
  | n + 1, s => doubleRounds n (doubleRound s)

/-- The square of a block before it is stirred. -/
def start (key : Key) (counter : UInt64) : Square :=
  #v[0x61707865, 0x3320646e, 0x79622d32, 0x6b206574,
    key[0], key[1], key[2], key[3], key[4], key[5], key[6], key[7],
    counter.toUInt32, (counter >>> 32).toUInt32, 0, 0]

/-- A block of the stream. -/
def block (key : Key) (counter : UInt64) : List UInt32 :=
  let s := start key counter
  (Vector.zipWith (· + ·) (doubleRounds 6 s) s).toList

/-- A place in the stream: the words left of the block at hand, and the number of the next block. -/
structure Keystream where
  key : Key
  counter : UInt64
  pending : List UInt32
  deriving DecidableEq, Repr

namespace Keystream

/-- The start of the stream of a key. -/
def ofKey (key : Key) : Keystream :=
  ⟨key, 0, []⟩

/-- The next word, and the place behind it. -/
def next (k : Keystream) : UInt32 × Keystream :=
  match k.pending with
  | w :: ws => (w, { k with pending := ws })
  | [] =>
    match block k.key k.counter with
    | w :: ws => (w, { k with counter := k.counter + 1, pending := ws })
    | [] => (0, k)

end Keystream

end CoreBench.Random
