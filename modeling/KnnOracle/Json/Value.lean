/-
JSON values and their texts.

A value is what a program has to say in JSON. Objects list their members
in the order they are to be written. Two layouts exist: `render` writes
no blanks at all, `pretty` writes one item or member a line, two spaces
deeper than what holds it.

Numbers with a fraction are written with the shortest digits that read
back. JSON has no word for a NaN or an infinity; both are written as
`null`.
-/
import KnnOracle.Decimal.Written

namespace KnnOracle.Json

/-- A JSON value. -/
inductive Value where
  | null
  | bool (value : Bool)
  | int (value : Int)
  | real (value : Float)
  | text (value : String)
  | list (items : List Value)
  | object (members : List (String × Value))

-- ============================================================== strings

/-- The lower-case hexadecimal digit of a number below sixteen. -/
def escapeDigit (n : Nat) : Char :=
  if n < 10 then Char.ofNat (48 + n) else Char.ofNat (87 + n)

/-- How a character stands inside quotes: quotes, backslashes and control
characters are escaped, all else stands for itself. -/
def escape (c : Char) : List Char :=
  match c with
  | '"' => ['\\', '"']
  | '\\' => ['\\', '\\']
  | '\n' => ['\\', 'n']
  | '\r' => ['\\', 'r']
  | '\t' => ['\\', 't']
  | _ =>
      if c.toNat = 0x08 then ['\\', 'b']
      else if c.toNat = 0x0C then ['\\', 'f']
      else if c.toNat < 0x20 then
        ['\\', 'u', '0', '0', escapeDigit (c.toNat / 16),
          escapeDigit (c.toNat % 16)]
      else [c]

/-- A string in quotes. -/
def quote (s : String) : List Char := '"' :: s.toList.flatMap escape ++ ['"']

/-- An integer in decimal digits. -/
def integer (n : Int) : List Char :=
  if n < 0 then '-' :: Decimal.digitsOf n.natAbs else Decimal.digitsOf n.natAbs

/-- A number with a fraction, or `null`. -/
def real (x : Float) : List Char :=
  (Decimal.compact? x).getD ['n', 'u', 'l', 'l']

-- ============================================================== layouts

/-- The characters that open and close an object. -/
def openBrace : Char := '\x7b'

/-- See `openBrace`. -/
def closeBrace : Char := '\x7d'

/-- Joins texts with a separator between them. -/
def joinWith (separator : List Char) : List (List Char) → List Char
  | [] => []
  | [x] => x
  | x :: rest => x ++ separator ++ joinWith separator rest

mutual

/-- The text without blanks. -/
def Value.chars : Value → List Char
  | .null => ['n', 'u', 'l', 'l']
  | .bool true => ['t', 'r', 'u', 'e']
  | .bool false => ['f', 'a', 'l', 's', 'e']
  | .int n => integer n
  | .real x => real x
  | .text s => quote s
  | .list items => '[' :: joinWith [','] (listChars items) ++ [']']
  | .object members =>
      openBrace :: joinWith [','] (memberChars members) ++ [closeBrace]

/-- The texts of the items. -/
def listChars : List Value → List (List Char)
  | [] => []
  | v :: rest => v.chars :: listChars rest

/-- The texts of the members. -/
def memberChars : List (String × Value) → List (List Char)
  | [] => []
  | (key, v) :: rest => (quote key ++ ':' :: v.chars) :: memberChars rest

end

/-- The text without blanks. -/
def Value.render (v : Value) : String := String.ofList v.chars

/-- A line break and the blanks of a depth. -/
def lineBreak (depth : Nat) : List Char :=
  '\n' :: List.replicate (2 * depth) ' '

/-- Items one a line between two brackets; nothing between them if there
are none. -/
def bracketed (first last : Char) (depth : Nat) (items : List (List Char)) :
    List Char :=
  if items.isEmpty then [first, last]
  else
    first :: lineBreak (depth + 1)
      ++ joinWith (',' :: lineBreak (depth + 1)) items
      ++ lineBreak depth ++ [last]

mutual

/-- The text with one item or member a line. -/
def Value.prettyChars (depth : Nat) : Value → List Char
  | .list items => bracketed '[' ']' depth (prettyList (depth + 1) items)
  | .object members =>
      bracketed openBrace closeBrace depth (prettyMembers (depth + 1) members)
  | .null => ['n', 'u', 'l', 'l']
  | .bool true => ['t', 'r', 'u', 'e']
  | .bool false => ['f', 'a', 'l', 's', 'e']
  | .int n => integer n
  | .real x => real x
  | .text s => quote s

/-- The texts of the items. -/
def prettyList (depth : Nat) : List Value → List (List Char)
  | [] => []
  | v :: rest => v.prettyChars depth :: prettyList depth rest

/-- The texts of the members. -/
def prettyMembers (depth : Nat) : List (String × Value) → List (List Char)
  | [] => []
  | (key, v) :: rest =>
      (quote key ++ ':' :: ' ' :: v.prettyChars depth)
        :: prettyMembers depth rest

end

/-- The text with one item or member a line. -/
def Value.pretty (v : Value) : String := String.ofList (v.prettyChars 0)

-- ============================================================= builders

/-- A natural number. -/
def Value.nat (n : Nat) : Value := .int n

/-- A value, or `null` if there is none. -/
def Value.ofOption {α : Type} (f : α → Value) : Option α → Value
  | none => .null
  | some a => f a

end KnnOracle.Json
