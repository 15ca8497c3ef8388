/-
Narrower binary formats.

Embedding files hold binary32 or binary16 numbers. Narrowing rounds the
exact value once, to the nearest number of the format and halves to the
even one; what lies beyond the largest number becomes the infinity.
Widening is exact, and every NaN is widened to the one quiet NaN.
-/
import KnnOracle.Decimal.Reading
import KnnOracle.Powers

namespace KnnOracle.Decimal

-- ========================================================== the formats

/-- A binary interchange format: how many bits hold the fraction and how
many the exponent. Both are fewer than those of a binary64, so that every
number of the format is a normal binary64. -/
structure BinaryFormat where
  fractionBits : Nat
  exponentBits : Nat

namespace BinaryFormat

/-- Half precision. -/
def binary16 : BinaryFormat := ⟨10, 5⟩

/-- Single precision. -/
def binary32 : BinaryFormat := ⟨23, 8⟩

variable (f : BinaryFormat)

/-- The exponent of a unit in the last place of the least numbers. -/
def leastExponent : Int :=
  2 - ((2 ^ (f.exponentBits - 1) : Nat) : Int) - (f.fractionBits : Int)

/-- The exponent field of infinities and NaNs. -/
def topField : Nat := 2 ^ f.exponentBits - 1

/-- The bits of the infinity. -/
def infinityBits : Nat := f.topField * 2 ^ f.fractionBits

/-- The bits of the quiet NaN without payload. -/
def quietBits : Nat := f.infinityBits + 2 ^ (f.fractionBits - 1)

/-- The bits of the number nearest to a dyadic. A unit in the last place
is the larger of the one that leaves `fractionBits + 1` significant bits
and the least one there is; a significand that rounds up to the next
power of two carries into the exponent field by itself. -/
def roundBits (d : Dyadic) : Nat :=
  let width : Int := d.significand.log2
  let unit := max (d.exponent + width - (f.fractionBits : Int)) f.leastExponent
  let units :=
    if unit ≤ d.exponent then d.significand * 2 ^ (d.exponent - unit).toNat
    else Fraction.round .toEven ⟨d.significand, 2 ^ (unit - d.exponent).toNat⟩
  let bits := (unit - f.leastExponent).toNat * 2 ^ f.fractionBits + units
  min bits f.infinityBits

/-- The bits of the nearest number of the format, sign included. -/
def narrow (x : Float) : Nat :=
  let sign := if isNegative x then 2 ^ (f.fractionBits + f.exponentBits) else 0
  match Magnitude.ofFloat x with
  | .nan => f.quietBits
  | .infinite => sign + f.infinityBits
  | .finite d => if d.significand = 0 then sign else sign + f.roundBits d

/-- The binary64 bits of `significand * 2 ^ exponent`, where the value is
a normal number and the significand has at most 53 bits: the leading one
is hidden and the rest is pushed to the left end of the fraction. -/
def wideBits (significand : Nat) (exponent : Int) : Nat :=
  if significand = 0 then 0
  else
    let width := significand.log2
    (exponent + width + 1023).toNat * 2 ^ 52 + (significand - 2 ^ width)
      * 2 ^ (52 - width)

/-- The binary64 with the same value. -/
def widen (bits : Nat) : Float :=
  let sign := bits / 2 ^ (f.fractionBits + f.exponentBits) % 2 * 2 ^ 63
  let field := bits / 2 ^ f.fractionBits % 2 ^ f.exponentBits
  let fraction := bits % 2 ^ f.fractionBits
  if field = f.topField then
    if fraction = 0 then Float.ofBits
      (UInt64.ofNat (sign + 0x7FF0000000000000))
    else notANumber
  else
    let significand :=
      if field = 0 then fraction else fraction + 2 ^ f.fractionBits
    let exponent := f.leastExponent + ((field - 1 : Nat) : Int)
    Float.ofBits (UInt64.ofNat (sign + wideBits significand exponent))

/-- A binary64 rounded to the format. -/
def roundTo (x : Float) : Float := f.widen (f.narrow x)

end BinaryFormat

end KnnOracle.Decimal
