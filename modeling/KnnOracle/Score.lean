/-
Scores and their total order.

A score is kept as the 64 bits of a binary64, NaNs with their sign and
payload included, and scores are ordered by those bits: as sign and
magnitude, negative numbers downward. That order is total where the
numeric one is not. It puts the negative zero below the positive one,
every NaN with a clear sign bit above the infinity, and every NaN with a
set one below the negative infinity; two scores tie only if they are the
same bits.
-/
import KnnOracle.Powers

namespace KnnOracle

/-- A similarity as it is stored and ranked. -/
structure Score where
  bits : UInt64
deriving DecidableEq, Inhabited, Repr

namespace Score

/-- The score with the value of a number. -/
def ofFloat (x : Float) : Score := ⟨x.toBits⟩

/-- The value of a score. -/
def toFloat (s : Score) : Float := Float.ofBits s.bits

/-- The place of a score in the total order, counted from the lowest bit
pattern. A clear sign bit puts the pattern into the upper half; a set one
reverses the lower half. -/
def height (s : Score) : Nat :=
  if s.bits.toNat < 2 ^ 63 then 2 ^ 63 + s.bits.toNat
  else 2 ^ 64 - 1 - s.bits.toNat

/-- Only equal scores share a place. -/
theorem height_injective {s t : Score} (h : s.height = t.height) : s = t := by
  have hs := s.bits.toNat_lt
  have ht := t.bits.toNat_lt
  simp only [height] at h
  have : s.bits.toNat = t.bits.toNat := by
    split at h <;> split at h <;> omega
  cases s
  cases t
  exact congrArg Score.mk (UInt64.toNat_inj.mp this)

end Score

end KnnOracle
