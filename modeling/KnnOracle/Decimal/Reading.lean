/-
Reading decimals.

A decimal is read by rounding its exact value once, to the nearest
binary64, halves to even. Exponents of any size may be written, so the
two ranges in which the answer is known beforehand are cut off first:
nothing from about 2^1024 on is finite, nothing below about 2^-1075 is
not zero. What remains is small enough to compute with.
-/
import KnnOracle.Decimal.Dyadic
import KnnOracle.Powers

namespace KnnOracle.Decimal

-- ====================================================== runs of digits

/-- The value of a decimal digit. -/
def digit? (c : Char) : Option Nat :=
  if '0' ≤ c ∧ c ≤ '9' then some (c.toNat - 48) else none

/-- Whether the character is one of the ten digits. -/
def isDigit (c : Char) : Bool := '0' ≤ c && c ≤ '9'

/-- The number that a run of digits names, going on from `acc`. -/
def valueOf (acc : Nat) : List Char → Nat
  | [] => acc
  | c :: rest => valueOf (10 * acc + (c.toNat - 48)) rest

-- ============================================================= rounding

/-- The binary64 infinity. -/
def infinity : Float := Float.ofBits 0x7FF0000000000000

/-- The quiet NaN without payload. -/
def notANumber : Float := Float.ofBits 0x7FF8000000000000

/-- The binary64 nearest to `coefficient * 10 ^ scale`; the infinity when
the value is too large. Ten lies between eight and sixteen, so the value
has a power of two from `least` on, and below zero one of at most
`width + 3 * scale + 1`. -/
def nearest (coefficient : Nat) (scale : Int) : Float :=
  if coefficient = 0 then 0.0
  else
    let width : Int := coefficient.log2
    let least := if scale < 0 then width + 4 * scale else width + 3 * scale
    if 1100 < least then infinity
    else if width + 3 * scale < -1400 then 0.0
    else Float.ofScientific coefficient (decide (scale < 0)) scale.natAbs

/-- The same with a sign in front; a negated zero is the negative zero. -/
def signedNearest (negative : Bool) (coefficient : Nat) (scale : Int) :
    Float :=
  if negative then -(nearest coefficient scale) else nearest coefficient scale

-- ============================================================= literals

/-- A whole number: digits, with a plus in front if one likes. -/
def natural? (cs : List Char) : Option Nat :=
  let digits := match cs with
    | '+' :: rest => rest
    | _ => cs
  if digits ≠ [] ∧ digits.all isDigit then some (valueOf 0 digits) else none

/-- An exponent: an optional sign and at least one digit. -/
def exponent? (cs : List Char) : Option Int :=
  match cs with
  | '-' :: rest =>
      if rest ≠ [] ∧ rest.all isDigit then some (-(valueOf 0 rest : Int))
        else none
  | '+' :: rest =>
      if rest ≠ [] ∧ rest.all isDigit then some (valueOf 0 rest) else none
  | _ => if cs ≠ [] ∧ cs.all isDigit then some (valueOf 0 cs) else none

/-- Digits, a point with digits on at least one side, and an exponent
after `e` or `E`. -/
def fraction? (cs : List Char) : Option (Nat × Int) :=
  let whole := cs.takeWhile isDigit
  let afterWhole := cs.dropWhile isDigit
  let (places, rest) := match afterWhole with
    | '.' :: more => (more.takeWhile isDigit, more.dropWhile isDigit)
    | _ => ([], afterWhole)
  if whole = [] ∧ places = [] then none
  else
    let coefficient := valueOf (valueOf 0 whole) places
    match rest with
    | [] => some (coefficient, -(places.length : Int))
    | e :: power =>
        if e = 'e' ∨ e = 'E' then
          (exponent? power).map fun p =>
            (coefficient, p - (places.length : Int))
        else none

/-- A number as a person types it: an optional sign, then `inf`,
`infinity` or `nan` in any case, or a decimal. -/
def float? (cs : List Char) : Option Float :=
  let (negative, body) := match cs with
    | '-' :: rest => (true, rest)
    | '+' :: rest => (false, rest)
    | _ => (false, cs)
  let word := String.ofList (body.map Char.toLower)
  if word = "inf" ∨ word = "infinity" then
    some (if negative then -infinity else infinity)
  else if word = "nan" then some notANumber
  else (fraction? body).map fun (c, e) => signedNearest negative c e

end KnnOracle.Decimal
