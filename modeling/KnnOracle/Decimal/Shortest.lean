/-
The fewest decimal digits that read back as the same binary64.

# The rule

Around every finite binary64 lies the interval of reals that round to it
(`Neighbourhood`); its ends belong to it when the significand is even,
because a reader breaks ties to even. A decimal reads back exactly when
it lies in the interval. Going from coarse decimal grids to fine ones,
the first grid with a point in the interval gives the fewest digits, and
of two such points the nearer to the number is taken.

Only the two neighbours of the number on a grid have to be looked at: if
any point of the grid lies in the interval, so does one of these two.
The walk is finite because every binary64 is itself a point of a fine
enough grid.
-/
import KnnOracle.Decimal.Dyadic
import KnnOracle.Powers

namespace KnnOracle.Decimal

-- ======================================================= the interval

/-- The reals that round to one number, as numerators over one common
denominator. -/
structure Neighbourhood where
  low : Nat
  value : Nat
  high : Nat
  unit : Nat
  closed : Bool
deriving Repr

/-- Half the gap to each side. Just above a power of two the gap below
is half as wide, the least exponent apart. In quarters of a unit in the
last place all three numerators are whole. -/
def Dyadic.neighbourhood (d : Dyadic) : Neighbourhood :=
  let below := if d.significand = 2 ^ 52 ∧ d.exponent > -1074 then 1 else 2
  let stretch := 2 ^ (d.exponent - 2).toNat
  { low := (4 * d.significand - below) * stretch
    value := 4 * d.significand * stretch
    high := (4 * d.significand + 2) * stretch
    unit := 2 ^ (2 - d.exponent).toNat
    closed := d.significand % 2 = 0 }

/-- Whether the grid point `c * 10 ^ scale` lies in the interval. Zero is
no candidate: it would read back as zero. -/
def Neighbourhood.contains (n : Neighbourhood) (scale : Int) (c : Nat) :
    Bool :=
  let point := c * 10 ^ scale.toNat * n.unit
  let stretch := 10 ^ (-scale).toNat
  c ≠ 0 && if n.closed then n.low * stretch ≤ point && point ≤ n.high * stretch
    else n.low * stretch < point && point < n.high * stretch

/-- The point of the grid `10 ^ scale` that stands for the number, if the
grid has one. -/
def Neighbourhood.onGrid (tie : Tie) (n : Neighbourhood) (scale : Int) :
    Option Nat :=
  let exact : Fraction := Fraction.unscale ⟨n.value, n.unit⟩ scale
  let under := exact.numerator / exact.denominator
  match n.contains scale under, n.contains scale (under + 1) with
  | true, true => some (exact.round tie)
  | true, false => some under
  | false, true => some (under + 1)
  | false, false => none

-- ============================================================ the walk

/-- The decimal `coefficient * 10 ^ scale`. -/
structure Digits where
  coefficient : Nat
  scale : Int
deriving DecidableEq, Repr

/-- Tries `steps` grids from `scale` on, each ten times as fine as the
one before. -/
def Neighbourhood.firstGrid (tie : Tie) (n : Neighbourhood) :
    Nat → Int → Option Digits
  | 0, _ => none
  | steps + 1, scale =>
      match n.onGrid tie scale with
      | some c => some ⟨c, scale⟩
      | none => n.firstGrid tie steps (scale - 1)

/-- The shortest decimal of a positive dyadic. The walk starts above the
number and ends, at the latest, at the grid on which the number is a
point itself. -/
def Dyadic.shortest (tie : Tie) (d : Dyadic) : Digits :=
  let n := d.neighbourhood
  let start := d.toFraction.ceiling
  let finest := min (d.exponent - 2) 0
  (n.firstGrid tie (start - finest + 1).toNat start).getD ⟨0, 0⟩

/-- The decimal digits of a natural number, leading one first. -/
def digitsOf (n : Nat) : List Char := Nat.toDigits 10 n

end KnnOracle.Decimal
