/-
Moments and spans of time as text.

A moment is a number of nanoseconds since the beginning of 1970 and is
written as a date and a time of day in universal time, with no more
places than it needs in steps of three. A span is written in the largest
unit of which there is a whole one.
-/
import KnnOracle.Decimal.Written
import KnnOracle.Powers

namespace KnnOracle.Text

-- ============================================================= moments

/-- Whether a year has a leap day. -/
def isLeapYear (year : Nat) : Bool :=
  (year % 4 == 0 && year % 100 != 0) || year % 400 == 0

/-- The lengths of the months of a year. -/
def monthLengths (year : Nat) : List Nat :=
  [31, if isLeapYear year then 29 else 28, 31, 30, 31, 30, 31, 31, 30,
    31, 30, 31]

/-- The month and the day in it of a day counted from zero. -/
def monthOfDay (month day : Nat) : List Nat → Nat × Nat
  | [] => (month, day + 1)
  | length :: rest =>
      if day < length then (month, day + 1)
      else monthOfDay (month + 1) (day - length) rest

/-- The length of a year. -/
def yearLength (year : Nat) : Nat := if isLeapYear year then 366 else 365

/-- A year has days. -/
theorem yearLength_pos (year : Nat) : 0 < yearLength year := by
  rw [yearLength]
  split <;> omega

/-- Year, month and day of a day counted from the first of a year. -/
def dateOfDay (year day : Nat) : Nat × Nat × Nat :=
  if day < yearLength year then
    let (month, day) := monthOfDay 1 day (monthLengths year)
    (year, month, day)
  else dateOfDay (year + 1) (day - yearLength year)
termination_by day
decreasing_by
  have := yearLength_pos year
  omega

/-- A number with zeros in front up to a number of digits. -/
def padded (digits n : Nat) : List Char :=
  let cs := Decimal.digitsOf n
  Decimal.zeros (digits - cs.length) ++ cs

/-- The places of a fraction of a second: none, three, six or nine. -/
def fractionText (nanos : Nat) : List Char :=
  if nanos = 0 then []
  else if nanos % 1000000 = 0 then '.' :: padded 3 (nanos / 1000000)
  else if nanos % 1000 = 0 then '.' :: padded 6 (nanos / 1000)
  else '.' :: padded 9 nanos

/-- A moment as text. -/
def momentText (nanos : Nat) : String :=
  let seconds := nanos / 1000000000
  let (year, month, day) := dateOfDay 1970 (seconds / 86400)
  let time := seconds % 86400
  String.ofList <|
    padded 4 year ++ '-' :: padded 2 month ++ '-' :: padded 2 day ++ 'T'
      :: padded 2 (time / 3600)
      ++ ':' :: padded 2 (time / 60 % 60) ++ ':' :: padded 2 (time % 60)
      ++ fractionText (nanos % 1000000000) ++ ['Z']

-- ================================================================ spans

/-- A number of parts of a unit, `places` digits after the point at most. -/
def spanIn (places : Nat) (nanos : Nat) : List Char :=
  let unit := 10 ^ places
  let rest :=
    ((padded places (nanos % unit)).reverse.dropWhile (· == '0')).reverse
  Decimal.digitsOf (nanos / unit) ++ if rest.isEmpty ∨
    places = 0 then [] else '.' :: rest

/-- A span of nanoseconds as text. -/
def spanText (nanos : Nat) : String :=
  String.ofList <|
    if nanos ≥ 1000000000 then spanIn 9 nanos ++ ['s']
    else if nanos ≥ 1000000 then spanIn 6 nanos ++ ['m', 's']
    else if nanos ≥ 1000 then spanIn 3 nanos ++ ['µ', 's']
    else spanIn 0 nanos ++ ['n', 's']

/-- A span of nanoseconds in milliseconds. The seconds are put together
from their whole and their fraction first. -/
def milliseconds (nanos : Nat) : Float :=
  (Float.ofNat (nanos / 1000000000) + Float.ofNat (nanos % 1000000000)
    / 1000000000.0) * 1000.0

end KnnOracle.Text
