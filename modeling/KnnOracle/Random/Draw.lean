/-
Draws from a random stream.

* `unit`: a number in [0, 1) with 52 random bits;
* `signed`: a number in [-1, 1);
* `Noise`: a number in [-d, d], both ends possible;
* `below`: an index under a bound, without bias;
* `shuffle`: a permutation of a list.

An index is the high half of a 64-bit product of the bound and a random
word. Words whose product has a low half beyond `zone` would favour some
indices and are drawn again; more than half of all words are accepted,
so the limit on retries, which makes `below` total, is never met in
practice. Whatever word is taken last, the index is under the bound.
-/
import KnnOracle.Powers
import KnnOracle.Random.ChaCha

namespace KnnOracle.Random

-- ============================================================== numbers

/-- A number in [0, 1): the bits become the fraction of a number in
[1, 2), from which one is taken. -/
def unit (s : Stream) : Float × Stream :=
  let (bits, s) := s.doubleWord
  (Float.ofBits ((0x3FF0000000000000 : UInt64) ||| (bits >>> 12)) - 1.0, s)

/-- A number in [-1, 1). -/
def signed (s : Stream) : Float × Stream :=
  let (v, s) := unit s
  (v * 2.0 + -1.0, s)

/-- The largest number that `unit` gives. -/
def unitMax : Float := Float.ofBits 0x3FEFFFFFFFFFFFFE

/-- Lowers a scale, one representable number at a time, until no draw can
leave [-d, d]. The scale is given by its bits. -/
def fitScale (d : Float) : Nat → Float
  | 0 => 0.0
  | bits + 1 =>
      let scale := Float.ofBits (UInt64.ofNat (bits + 1))
      if scale * unitMax + -d > d then fitScale d bits else scale

/-- The uniform numbers in [-degree, degree]. -/
structure Noise where
  scale : Float
  degree : Float

/-- The noise of a degree above zero; there is none if the range is too
wide for a binary64. -/
def Noise.ofDegree? (degree : Float) : Option Noise :=
  let scale := (degree - -degree) / unitMax
  if scale.isFinite then some ⟨fitScale degree scale.toBits.toNat, degree⟩
  else none

/-- Draws a number. -/
def Noise.draw (n : Noise) (s : Stream) : Float × Stream :=
  let (v, s) := unit s
  (v * n.scale + -n.degree, s)

-- ============================================================== indices

/-- The largest low half that is accepted for a bound of less than 2^32. -/
def zone (bound : Nat) : Nat :=
  bound * 2 ^ (31 - bound.log2) - 1

/-- Draws until a word is accepted, at most `retries` times more. -/
def belowWithin (bound : Nat) : Nat → Stream → Nat × Stream
  | 0, s =>
      let (w, s) := s.word
      (w.toNat * bound / 2 ^ 32, s)
  | retries + 1, s =>
      let (w, s) := s.word
      let product := w.toNat * bound
      if product % 2 ^ 32 ≤ zone bound then (product / 2 ^ 32, s)
      else belowWithin bound retries s

/-- Draws an index under a positive bound. -/
def below (bound : Nat) (s : Stream) : Nat × Stream := belowWithin bound 1000 s

/-- An index is under its bound. -/
theorem belowWithin_lt {bound : Nat} (h : 0 < bound) (retries : Nat)
    (s : Stream) :
    (belowWithin bound retries s).1 < bound := by
  have key : ∀ w : UInt32, w.toNat * bound / 2 ^ 32 < bound := fun w =>
    Nat.div_lt_of_lt_mul (Nat.mul_lt_mul_of_pos_right w.toNat_lt h)
  induction retries generalizing s with
  | zero => exact key _
  | succ retries ih =>
      simp only [belowWithin]
      split
      · exact key _
      · exact ih _

/-- An element of a list, if it has any; the empty list draws nothing. -/
def choose? {α : Type} (xs : Array α) (s : Stream) : Option α × Stream :=
  if xs.isEmpty then (none, s)
  else
    let (i, s) := below xs.size s
    (xs[i]?, s)

-- ============================================================= shuffling

/-- Exchanges the elements at the positions from `last` down to one, each
with one at or before it. -/
def shuffleFrom {α : Type} : Nat → Array α → Stream → Array α × Stream
  | 0, xs, s => (xs, s)
  | last + 1, xs, s =>
      let (j, s) := below (last + 2) s
      shuffleFrom last (xs.swapIfInBounds (last + 1) j) s

/-- A random permutation of a list. -/
def shuffle {α : Type} (xs : List α) (s : Stream) : List α × Stream :=
  let (xs, s) := shuffleFrom (xs.length - 1) xs.toArray s
  (xs.toList, s)

end KnnOracle.Random
