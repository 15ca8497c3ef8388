/-
A reproducible stream of random words.

The stream is the keystream of ChaCha with eight rounds: block after
block of sixteen words, counted by a 64-bit block counter from zero, with
a stream id of zero. The 256-bit key is spread out of a 64-bit seed by a
linear congruential generator with permuted output. Equal seeds give
equal streams.
-/
namespace KnnOracle.Random

-- ============================================================ the block

/-- The state of the cipher. -/
abbrev Block := Vector UInt32 16

/-- Rotation to the left, by less than the width and more than zero. -/
def rotateLeft (x : UInt32) (count : UInt32) : UInt32 :=
  (x <<< count) ||| (x >>> (32 - count))

/-- One quarter round on the words of the state at four places. -/
def quarterRound (s : Block) (a b c d : Nat) : Block :=
  let word (i : Nat) : UInt32 := s[i]?.getD 0
  let a1 := word a + word b
  let d1 := rotateLeft (word d ^^^ a1) 16
  let c1 := word c + d1
  let b1 := rotateLeft (word b ^^^ c1) 12
  let a2 := a1 + b1
  let d2 := rotateLeft (d1 ^^^ a2) 8
  let c2 := c1 + d2
  let b2 := rotateLeft (b1 ^^^ c2) 7
  (((s.setIfInBounds a a2).setIfInBounds b b2).setIfInBounds c
    c2).setIfInBounds d d2

/-- A round on the columns and one on the diagonals. -/
def doubleRound (s : Block) : Block :=
  let s := quarterRound s 0 4 8 12
  let s := quarterRound s 1 5 9 13
  let s := quarterRound s 2 6 10 14
  let s := quarterRound s 3 7 11 15
  let s := quarterRound s 0 5 10 15
  let s := quarterRound s 1 6 11 12
  let s := quarterRound s 2 7 8 13
  quarterRound s 3 4 9 14

/-- A cipher key. -/
abbrev Key := Vector UInt32 8

/-- The words of the block with a given number. -/
def keystream (k : Key) (counter : UInt64) : List UInt32 :=
  let start : Block :=
    #v[0x61707865, 0x3320646e, 0x79622d32, 0x6b206574,
       k.get 0, k.get 1, k.get 2, k.get 3, k.get 4, k.get 5, k.get 6, k.get 7,
       counter.toUInt32, (counter >>> 32).toUInt32, 0, 0]
  let mixed := doubleRound (doubleRound (doubleRound (doubleRound start)))
  (Vector.zipWith (· + ·) mixed start).toList

-- ============================================================= the seed

/-- Advances the generator behind the key. -/
def advance (state : UInt64) : UInt64 :=
  state * 6364136223846793005 + 11634580027462260723

/-- The key word that a state of the generator gives: its high bits folded
together and rotated by its highest five. -/
def keyWord (state : UInt64) : UInt32 :=
  let folded := (((state >>> 18) ^^^ state) >>> 27).toUInt32
  let turn := (state >>> 59).toUInt32
  (folded >>> turn) ||| (folded <<< ((32 - turn) % 32))

/-- The state after a number of advances. -/
def advanced (seed : UInt64) : Nat → UInt64
  | 0 => seed
  | n + 1 => advance (advanced seed n)

/-- The key of a seed. -/
def keyOf (seed : UInt64) : Key :=
  Vector.ofFn fun i => keyWord (advanced seed (i.val + 1))

-- =========================================================== the stream

/-- A place in a keystream: the words left of the current block and the
number of the next one. -/
structure Stream where
  key : Key
  next : UInt64
  ahead : List UInt32

namespace Stream

/-- The start of the stream of a seed. -/
def ofSeed (seed : UInt64) : Stream := ⟨keyOf seed, 0, []⟩

/-- Takes one word. -/
def word (s : Stream) : UInt32 × Stream :=
  match s.ahead with
  | w :: rest => (w, { s with ahead := rest })
  | [] =>
      match keystream s.key s.next with
      | w :: rest => (w, { s with next := s.next + 1, ahead := rest })
      | [] => (0, s)

/-- Takes two words as one of 64 bits, the low half first. -/
def doubleWord (s : Stream) : UInt64 × Stream :=
  let (low, s) := s.word
  let (high, s) := s.word
  (low.toUInt64 ||| (high.toUInt64 <<< 32), s)

end Stream

end KnnOracle.Random
