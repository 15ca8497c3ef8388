/-
Hosts of web addresses.

A host is a name or a number. Numbers have 32 bits, written as four
numbers with points between them, or eight groups of 16 bits, written in
brackets. A name whose last part is a number has to be a number of 32
bits as a whole, in which parts may be left out and may be octal or
hexadecimal. However a number was written, it has one text: plain decimal
numbers, or groups of which the first of the longest rows of zeros is
left out. Names are ASCII and in small letters.
-/
import KnnOracle.Decimal.Shortest
import KnnOracle.Pieces
import KnnOracle.Powers
import KnnOracle.Text.Percent

namespace KnnOracle.Http

/-- A host. -/
inductive Host where
  | name (text : List Char)
  | number (value : Nat)
  | groups (values : List Nat)
deriving DecidableEq, Repr

namespace Host

-- ============================================================= numerals

/-- The number that digits of a base stand for; no digits stand for zero. -/
def valueIn? (base : Nat) (digits : List Char) : Option Nat :=
  digits.foldl (fun value c => do
    let value ← value
    let digit ← Json.hexValue? c
    if digit < base then some (base * value + digit) else none) (some 0)

/-- The number that a part stands for: hexadecimal after `0x`, octal after
a zero, and decimal otherwise. -/
def part? : List Char → Option Nat
  | [] => none
  | '0' :: 'x' :: digits => valueIn? 16 digits
  | ['0'] => some 0
  | '0' :: digits => valueIn? 8 digits
  | digits => valueIn? 10 digits

-- ======================================================= 32 bits in parts

/-- Whether a part is a number, or was meant to be one. -/
def isNumeric (part : List Char) : Bool :=
  (!part.isEmpty && part.all Decimal.isDigit) || (part? part).isSome

/-- The number of 32 bits that parts make up: all but the last have eight
bits, and the last has those that are left. -/
def number? (parts : List (List Char)) : Option Nat := do
  let numbers ← parts.mapM part?
  let last ← numbers.getLast?
  let front := numbers.dropLast
  if 3 < front.length ∨ front.any (255 < ·) ∨
    256 ^ (4 - front.length) ≤ last then none
  else
    some (front.foldl (fun value n => 256 * value + n) 0
      * 256 ^ (4 - front.length) + last)

/-- The text of a number of 32 bits. -/
def numberText (value : Nat) : List Char :=
  List.intercalate ['.'] ([2 ^ 24, 2 ^ 16, 2 ^ 8, 1].map fun unit =>
    Decimal.digitsOf (value / unit % 256))

-- ============================================================== in groups

/-- The group that one to four hexadecimal digits stand for. -/
def group? (digits : List Char) : Option Nat :=
  if digits.isEmpty ∨ 4 < digits.length then none else valueIn? 16 digits

/-- A decimal number of eight bits, without zeros in front. -/
def byte? (digits : List Char) : Option Nat :=
  match digits with
  | '0' :: _ :: _ => none
  | [] => none
  | _ => (valueIn? 10 digits).filter (· < 256)

/-- The last part of a text in groups: one group, or two that are written
as four numbers with points between them. -/
def lastGroups? (part : List Char) : Option (List Nat) :=
  match pieces (· == '.') part with
  | [digits] => (group? digits).map fun g => [g]
  | [a, b, c, d] => do
      let a ← byte? a
      let b ← byte? b
      let c ← byte? c
      let d ← byte? d
      some [256 * a + b, 256 * c + d]
  | _ => none

/-- The groups of a text in which none are left out; `last?` reads what
follows the last colon. -/
def row? (last? : List Char → Option (List Nat)) (text : List Char) :
    Option (List Nat) :=
  if text.isEmpty then some []
  else do
    let parts := pieces (· == ':') text
    let front ← parts.dropLast.mapM group?
    let last ← last? (parts.getLast?.getD [])
    some (front ++ last)

/-- Cuts a text at its first two colons in a row. -/
def cutAtGap : List Char → Option (List Char × List Char)
  | ':' :: ':' :: rest => some ([], rest)
  | c :: rest => (cutAtGap rest).map fun (left, right) => (c :: left, right)
  | [] => none

/-- The eight groups of a text. Two colons in a row stand for at least
one group of zero. -/
def groups? (text : List Char) : Option (List Nat) :=
  match cutAtGap text with
  | none => (row? lastGroups? text).filter fun row => row.length = 8
  | some (left, right) => do
      let left ← row? (fun part => (group? part).map fun g => [g]) left
      let right ← row? lastGroups? right
      let count := left.length + right.length
      if 7 < count then none
      else some (left ++ List.replicate (8 - count) 0 ++ right)

/-- The number of zeros that a list starts with. -/
def zeros (values : List Nat) : Nat := (values.takeWhile (· = 0)).length

/-- The length of the longest row of zeros. -/
def longestZeros (values : List Nat) : Nat :=
  (List.range values.length).foldl
    (fun longest i => max longest (zeros (values.drop i))) 0

/-- Groups with colons between them. -/
def rowText (values : List Nat) : List Char :=
  List.intercalate [':'] (values.map (Nat.toDigits 16))

/-- The text of groups. A single zero is written. -/
def groupsText (values : List Nat) : List Char :=
  let longest := longestZeros values
  match (List.range values.length).find? fun i =>
    zeros (values.drop i) = longest with
  | some i =>
      if longest < 2 then rowText values
      else rowText (values.take i) ++ [':', ':']
        ++ rowText (values.drop (i + longest))
  | none => rowText values

-- =============================================================== hosts

/-- Whether a character may stand in a name. -/
def isNameChar (c : Char) : Bool :=
  0x20 < c.toNat && c.toNat < 0x7F
    && !(['#', '%', '/', ':', '<', '>', '?', '@', '[', '\\', ']', '^',
      '|'].contains c)

/-- The parts of a name. A point at the end starts none. -/
def partsOf (word : List Char) : List (List Char) :=
  let parts := pieces (· == '.') word
  if parts.getLast? = some [] then parts.dropLast else parts

/-- Reads a host. What is percent coded in a name stands for itself. -/
def read? (cs : List Char) : Option Host :=
  match cs with
  | '[' :: rest =>
      if rest.getLast? = some ']' then (groups? rest.dropLast).map .groups
      else none
  | _ => do
      let decoded ← Text.percentDecode? cs
      let word := decoded.toList.map Char.toLower
      if word.isEmpty || !word.all isNameChar then none
      else
        let parts := partsOf word
        if isNumeric (parts.getLast?.getD []) then (number? parts).map .number
        else some (.name word)

/-- The text of a host. -/
def text : Host → List Char
  | .name word => word
  | .number value => numberText value
  | .groups values => '[' :: groupsText values ++ [']']

end Host

end KnnOracle.Http
