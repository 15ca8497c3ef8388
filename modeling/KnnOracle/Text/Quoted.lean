/-
Text in quotes, as messages show it.

Quotes and backslashes get a backslash in front, the usual control
characters have letters of their own, and everything that could not be
seen is written as its code point. In a path the single quote is escaped
as well.
-/
import KnnOracle.Text.Class
import KnnOracle.Text.Hex

namespace KnnOracle.Text

/-- The digits of a code point without leading zeros. -/
def hexDigits (n : Nat) : List Char := Nat.toDigits 16 n

/-- How a character stands inside quotes. -/
def quotedChar (c : Char) : List Char :=
  match c with
  | '"' => ['\\', '"']
  | '\\' => ['\\', '\\']
  | '\n' => ['\\', 'n']
  | '\r' => ['\\', 'r']
  | '\t' => ['\\', 't']
  | '\x00' => ['\\', '0']
  | _ =>
      if isTraceless c then ['\\', 'u', '\x7b'] ++ hexDigits c.toNat
        ++ ['\x7d'] else [c]

/-- A text in quotes. -/
def quoted (s : String) : String :=
  String.ofList ('"' :: s.toList.flatMap quotedChar ++ ['"'])

/-- A path in quotes. -/
def quotedPath (s : String) : String :=
  String.ofList
    ('"' :: s.toList.flatMap
      (fun c => if c = '\x27' then ['\\', c] else quotedChar c) ++ ['"'])

end KnnOracle.Text
