/-
JSON texts.

A tree is what a JSON text says, before anything is made of it. It keeps
what a reader may have to refuse later, and only if it wants the value:
a numeral of any size, and a string whose escapes name one half of a
surrogate pair. What no one reads is therefore only held to the grammar.

# Grammar

`Tree.parse?` reads one value, with blanks (space, tab, line feed,
carriage return) allowed around every token and nothing else after it.
Numerals have no leading zeros and digits on both sides of a point;
strings hold no control characters; lists and objects have no trailing
comma. The recursion is bounded by the length of the text, which no
nesting can exceed.
-/
import KnnOracle.Decimal.Reading
import KnnOracle.Powers

namespace KnnOracle.Json

-- ============================================================ the trees

/-- The number `coefficient * 10 ^ scale` with a sign, and whether it was
written with digits alone. -/
structure Numeral where
  negative : Bool
  coefficient : Nat
  scale : Int
  integral : Bool
deriving DecidableEq, Repr

/-- A string as code points, among which may be surrogates. -/
abbrev Units := List Nat

/-- A JSON text. Members stand in the order written and may repeat. -/
inductive Tree where
  | null
  | bool (value : Bool)
  | number (numeral : Numeral)
  | string (units : Units)
  | array (items : List Tree)
  | object (members : List (Units × Tree))
deriving Repr

-- ========================================================== the tokens

/-- The blanks that may stand between tokens. -/
def isBlank (c : Char) : Bool := c = ' ' || c = '\n' || c = '\t' || c = '\r'

/-- Drops blanks. -/
def skip (cs : List Char) : List Char := cs.dropWhile isBlank

/-- The value of a hexadecimal digit of either case. -/
def hexValue? (c : Char) : Option Nat :=
  if '0' ≤ c ∧ c ≤ '9' then some (c.toNat - 48)
  else if 'a' ≤ c ∧ c ≤ 'f' then some (c.toNat - 87)
  else if 'A' ≤ c ∧ c ≤ 'F' then some (c.toNat - 55)
  else none

/-- The unit that four hexadecimal digits name. -/
def hexUnit? (a b c d : Char) : Option Nat := do
  let a ← hexValue? a
  let b ← hexValue? b
  let c ← hexValue? c
  let d ← hexValue? d
  some (((a * 16 + b) * 16 + c) * 16 + d)

/-- The unit that a one-letter escape names. -/
def escapeUnit? (c : Char) : Option Nat :=
  match c with
  | '"' => some 0x22
  | '\\' => some 0x5C
  | '/' => some 0x2F
  | 'b' => some 0x08
  | 'f' => some 0x0C
  | 'n' => some 0x0A
  | 'r' => some 0x0D
  | 't' => some 0x09
  | _ => none

/-- Reads the rest of a string after its opening quote; `acc` holds the
units read so far, last one first. -/
def quoted? (acc : Units) : List Char → Option (Units × List Char)
  | [] => none
  | '"' :: rest => some (acc.reverse, rest)
  | '\\' :: 'u' :: a :: b :: c :: d :: rest =>
      match hexUnit? a b c d with
      | some unit => quoted? (unit :: acc) rest
      | none => none
  | '\\' :: e :: rest =>
      match escapeUnit? e with
      | some unit => quoted? (unit :: acc) rest
      | none => none
  | c :: rest =>
      if c.toNat < 0x20 ∨ c = '\\' then none else quoted? (c.toNat :: acc) rest

/-- Reads the exponent after its mark. -/
def exponent? (cs : List Char) : Option (Int × List Char) :=
  let (negative, cs) := match cs with
    | '-' :: rest => (true, rest)
    | '+' :: rest => (false, rest)
    | _ => (false, cs)
  let digits := cs.takeWhile Decimal.isDigit
  if digits = [] then none
  else
    let power : Int := Decimal.valueOf 0 digits
    some (if negative then -power else power, cs.dropWhile Decimal.isDigit)

/-- Reads what may follow the whole part: places, then an exponent. -/
def places? (negative : Bool) (whole : Nat) (cs : List Char) :
    Option (Numeral × List Char) := do
  let (coefficient, scale, integral, cs) ← match cs with
    | '.' :: rest =>
        let digits := rest.takeWhile Decimal.isDigit
        if digits = [] then none
        else
          some (Decimal.valueOf whole digits, -(digits.length : Int), false,
            rest.dropWhile Decimal.isDigit)
    | _ => some (whole, (0 : Int), true, cs)
  match cs with
  | c :: rest =>
      if c = 'e' ∨ c = 'E' then
        let (power, rest) ← exponent? rest
        some (⟨negative, coefficient, scale + power, false⟩, rest)
      else some (⟨negative, coefficient, scale, integral⟩, cs)
  | [] => some (⟨negative, coefficient, scale, integral⟩, cs)

/-- Reads a numeral: a sign, a whole part without leading zeros, and what
may follow it. -/
def numeral? (cs : List Char) : Option (Numeral × List Char) :=
  let (negative, cs) := match cs with
    | '-' :: rest => (true, rest)
    | _ => (false, cs)
  match cs with
  | '0' :: rest => places? negative 0 rest
  | c :: _ =>
      if Decimal.isDigit c then
        places? negative (Decimal.valueOf 0 (cs.takeWhile Decimal.isDigit))
          (cs.dropWhile Decimal.isDigit)
      else none
  | [] => none

-- ========================================================== the grammar

mutual

/-- Reads a value. -/
def value? : Nat → List Char → Option (Tree × List Char)
  | 0, _ => none
  | fuel + 1, cs =>
      match skip cs with
      | 'n' :: 'u' :: 'l' :: 'l' :: rest => some (.null, rest)
      | 't' :: 'r' :: 'u' :: 'e' :: rest => some (.bool true, rest)
      | 'f' :: 'a' :: 'l' :: 's' :: 'e' :: rest => some (.bool false, rest)
      | '"' :: rest =>
          match quoted? [] rest with
          | some (units, rest) => some (.string units, rest)
          | none => none
      | '[' :: rest =>
          match skip rest with
          | ']' :: rest => some (.array [], rest)
          | rest =>
              match items? fuel rest with
              | some (items, rest) => some (.array items, rest)
              | none => none
      | '\x7b' :: rest =>
          match skip rest with
          | '\x7d' :: rest => some (.object [], rest)
          | rest =>
              match members? fuel rest with
              | some (members, rest) => some (.object members, rest)
              | none => none
      | cs =>
          match numeral? cs with
          | some (n, rest) => some (.number n, rest)
          | none => none

/-- Reads the items of a list, at least one, and its end. -/
def items? : Nat → List Char → Option (List Tree × List Char)
  | 0, _ => none
  | fuel + 1, cs =>
      match value? fuel cs with
      | none => none
      | some (item, rest) =>
          match skip rest with
          | ']' :: rest => some ([item], rest)
          | ',' :: rest =>
              match items? fuel rest with
              | some (items, rest) => some (item :: items, rest)
              | none => none
          | _ => none

/-- Reads the members of an object, at least one, and its end. -/
def members? : Nat → List Char → Option (List (Units × Tree) × List Char)
  | 0, _ => none
  | fuel + 1, cs =>
      match skip cs with
      | '"' :: rest =>
          match quoted? [] rest with
          | none => none
          | some (key, rest) =>
              match skip rest with
              | ':' :: rest =>
                  match value? fuel rest with
                  | none => none
                  | some (value, rest) =>
                      match skip rest with
                      | '\x7d' :: rest => some ([(key, value)], rest)
                      | ',' :: rest =>
                          match members? fuel rest with
                          | some (members, rest) =>
                              some ((key, value) :: members, rest)
                          | none => none
                      | _ => none
              | _ => none
      | _ => none

end

/-- Reads a whole text as one value. -/
def Tree.parseChars? (cs : List Char) : Option Tree :=
  match value? (2 * cs.length + 2) cs with
  | some (tree, rest) => if skip rest = [] then some tree else none
  | none => none

/-- Reads a whole text as one value. -/
def Tree.parse? (text : String) : Option Tree := parseChars? text.toList

end KnnOracle.Json
