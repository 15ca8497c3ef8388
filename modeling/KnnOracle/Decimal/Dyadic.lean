/-
Binary64 numbers as exact fractions.

A finite binary64 is a whole number times a power of two. Everything
that prints a number exactly (`Shortest`, `Rounded`) or narrows it to a
smaller format (`Narrow`) starts from that pair, so that the arithmetic
behind a printed digit is arithmetic of natural numbers and nothing is
left to the floating-point unit.
-/
import KnnOracle.Powers

namespace KnnOracle.Decimal

-- ============================================================ the pair

/-- The number `significand * 2 ^ exponent`. -/
structure Dyadic where
  significand : Nat
  exponent : Int
deriving DecidableEq, Repr

/-- What a binary64 is, sign apart. -/
inductive Magnitude where
  | nan
  | infinite
  | finite (value : Dyadic)
deriving DecidableEq, Repr

namespace Magnitude

/-- Reads the exponent and fraction fields. A field of all ones means no
number; a field of zeros drops the hidden leading one. -/
def ofBits (bits : UInt64) : Magnitude :=
  let fraction : Nat := bits.toNat % 2 ^ 52
  let field : Nat := bits.toNat / 2 ^ 52 % 2 ^ 11
  if field = 2047 then
    if fraction = 0 then .infinite else .nan
  else if field = 0 then .finite ⟨fraction, -1074⟩
  else .finite ⟨fraction + 2 ^ 52, (field : Int) - 1075⟩

/-- The magnitude of a number, whatever its sign. -/
def ofFloat (x : Float) : Magnitude := ofBits x.toBits

end Magnitude

/-- Whether the sign bit is set; it is for the negative zero. -/
def isNegative (x : Float) : Bool := x.toBits ≥ 0x8000000000000000

-- ====================================================== exact fractions

/-- A fraction of natural numbers. -/
structure Fraction where
  numerator : Nat
  denominator : Nat
deriving DecidableEq, Repr

/-- The dyadic as a fraction whose denominator is a power of two. -/
def Dyadic.toFraction (d : Dyadic) : Fraction :=
  if 0 ≤ d.exponent then ⟨d.significand * 2 ^ d.exponent.toNat, 1⟩
  else ⟨d.significand, 2 ^ (-d.exponent).toNat⟩

/-- The fraction divided by `10 ^ scale`. -/
def Fraction.unscale (f : Fraction) (scale : Int) : Fraction :=
  if 0 ≤ scale then ⟨f.numerator, f.denominator * 10 ^ scale.toNat⟩
  else ⟨f.numerator * 10 ^ (-scale).toNat, f.denominator⟩

/-- Where a fraction that lies exactly between two whole numbers goes. -/
inductive Tie where
  | toEven
  | up
deriving DecidableEq, Repr

/-- The nearest whole number. -/
def Fraction.round (tie : Tie) (f : Fraction) : Nat :=
  let quotient := f.numerator / f.denominator
  let twice := 2 * (f.numerator % f.denominator)
  if twice < f.denominator then quotient
  else if twice > f.denominator then quotient + 1
  else match tie with
    | .up => quotient + 1
    | .toEven => if quotient % 2 = 0 then quotient else quotient + 1

/-- An upper bound of the decimal exponent: the fraction is below
`10 ^ ceiling`, and not far below it. A binary digit is worth less than
0.30103 decimal ones. -/
def Fraction.ceiling (f : Fraction) : Int :=
  let width : Int := (f.numerator.log2 : Int) - (f.denominator.log2 : Int) + 1
  if 0 ≤ width then width * 30103 / 100000 + 1
  else width * 30102 / 100000 + 1

end KnnOracle.Decimal
