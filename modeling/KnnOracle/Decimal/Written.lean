/-
Decimal texts of binary64 numbers.

Four layouts, each with one value that names its decisions:

* `plain`: the shortest digits, all positions written out, no exponent;
* `compact`: the shortest digits with an exponent for the very large and
  the very small, and always a mark that the number is a fraction;
* `fixed`: a given number of places, a half going to the even neighbour;
* `scientific`: one digit, a given number of places, and an exponent.

`plain` breaks a tie between two shortest decimals upward, `compact` to
the even digit; such a tie needs a number near 2^50 that ends in a
quarter.
-/
import KnnOracle.Decimal.Shortest
import KnnOracle.Powers

namespace KnnOracle.Decimal

-- ============================================== digits at a position

/-- `count` zeros. -/
def zeros (count : Nat) : List Char := List.replicate count '0'

/-- Writes `digits * 10 ^ scale` without an exponent. -/
def positional (digits : List Char) (scale : Int) : List Char :=
  if 0 ≤ scale then digits ++ zeros scale.toNat
  else
    let places := (-scale).toNat
    if digits.length > places then
      digits.take (digits.length - places) ++ '.'
        :: digits.drop (digits.length - places)
    else '0' :: '.' :: zeros (places - digits.length) ++ digits

/-- One digit, a point when more follow, and the exponent. -/
def exponential (digits : List Char) (scale : Int) (showPlus : Bool) :
    List Char :=
  let power := scale + (digits.length : Int) - 1
  let mantissa := match digits with
    | [] => []
    | [d] => [d]
    | d :: rest => d :: '.' :: rest
  let sign := if power < 0 then ['-'] else if showPlus then ['+'] else []
  mantissa ++ 'e' :: sign ++ digitsOf power.natAbs

/-- The sign in front: a minus for the sign bit, else `plus`. -/
def signed (x : Float) (plus : List Char) (body : List Char) : List Char :=
  (if isNegative x then ['-'] else plus) ++ body

-- ========================================================== the layouts

/-- All positions written out: `0.1`, `1000`, `-0`, `NaN`, `inf`. -/
def plain (x : Float) : String :=
  match Magnitude.ofFloat x with
  | .nan => "NaN"
  | .infinite => String.ofList (signed x [] ['i', 'n', 'f'])
  | .finite d =>
      if d.significand = 0 then String.ofList (signed x [] ['0'])
      else
        let s := d.shortest .up
        String.ofList
          (signed x [] (positional (digitsOf s.coefficient) s.scale))

/-- Where the compact layout writes positions and where an exponent: the
leading digit's power of ten must be at least `leastPower` and below
`powerLimit`. -/
structure CompactRange where
  leastPower : Int
  powerLimit : Int

/-- Positions from `0.00001` up to below ten quadrillions. -/
def CompactRange.standard : CompactRange := ⟨-5, 16⟩

/-- The compact layout of a finite number: `1.0`, `0.00001`, `1.5e-7`,
`1e+16`, `-0.0`; nothing for a NaN or an infinity. -/
def compact? (x : Float) : Option (List Char) :=
  match Magnitude.ofFloat x with
  | .nan => none
  | .infinite => none
  | .finite d =>
      if d.significand = 0 then some (signed x [] ['0', '.', '0'])
      else
        let s := d.shortest .toEven
        let digits := digitsOf s.coefficient
        let power := s.scale + (digits.length : Int) - 1
        let range := CompactRange.standard
        if range.leastPower ≤ power ∧ power < range.powerLimit then
          let body := positional digits s.scale
          some (signed x [] (if 0 ≤ s.scale then body ++ ['.', '0'] else body))
        else some (signed x [] (exponential digits s.scale true))

/-- A given number of places; the exact value is rounded once, a half
going to the even neighbour. -/
def fixed (places : Nat) (x : Float) : String :=
  match Magnitude.ofFloat x with
  | .nan => "NaN"
  | .infinite => String.ofList (signed x [] ['i', 'n', 'f'])
  | .finite d =>
      let units := (d.toFraction.unscale (-(places : Int))).round .toEven
      let digits := digitsOf units
      let padded := zeros (places + 1 - digits.length) ++ digits
      String.ofList (signed x [] (positional padded (-(places : Int))))

/-- Rounds to `places + 1` significant digits, starting at a power of ten
that may be one or two too high; a carry past the last digit moves the
power up. -/
def Fraction.significant (places : Nat) (f : Fraction) : Nat → Int → Digits
  | 0, power => ⟨(f.unscale (power - places)).round .toEven, power - places⟩
  | steps + 1, power =>
      let scale := power - (places : Int)
      let whole := (f.unscale power).numerator / (f.unscale power).denominator
      if whole = 0 then f.significant places steps (power - 1)
      else
        let units := (f.unscale scale).round .toEven
        if units = 10 ^ (places + 1) then ⟨units / 10, scale + 1⟩
        else ⟨units, scale⟩

/-- One digit, `places` more and an exponent: `1.50e-1`, `0.00e0`. With
`showPlus` numbers that are not negative carry a plus. -/
def scientific (places : Nat) (showPlus : Bool) (x : Float) : String :=
  let plus := if showPlus then ['+'] else []
  match Magnitude.ofFloat x with
  | .nan => "NaN"
  | .infinite => String.ofList (signed x plus ['i', 'n', 'f'])
  | .finite d =>
      if d.significand = 0 then
        String.ofList
          (signed x plus
            (exponential (zeros (places + 1)) (-(places : Int)) false))
      else
        let f := d.toFraction
        let s := f.significant places 8 f.ceiling
        String.ofList
          (signed x plus (exponential (digitsOf s.coefficient) s.scale false))

end KnnOracle.Decimal
