/-
Percent coding.

A character that may not stand for itself is written as the bytes of its
UTF-8 form, each as a percent sign and two upper-case digits. Reading
takes every percent sign with two digits after it for a byte; a percent
sign without them stands for itself, so writing and then reading gives
back the text only if the percent sign is escaped too.
-/
import KnnOracle.Json.Tree

namespace KnnOracle.Text

/-- The upper-case hexadecimal digit of a number below sixteen. -/
def upperDigit (n : Nat) : Char :=
  if n < 10 then Char.ofNat (48 + n) else Char.ofNat (55 + n)

/-- A byte as a percent sign and two digits. -/
def percentByte (b : UInt8) : List Char :=
  ['%', upperDigit (b.toNat / 16), upperDigit (b.toNat % 16)]

/-- Escapes the characters that must not stand for themselves. -/
def percentEncode (escaped : Char → Bool) (cs : List Char) : List Char :=
  cs.flatMap fun c =>
    if escaped c then (String.ofList [c]).toUTF8.toList.flatMap percentByte
    else [c]

/-- The bytes that a text stands for. -/
def percentBytes : List Char → List UInt8
  | [] => []
  | '%' :: a :: b :: rest =>
      match Json.hexValue? a, Json.hexValue? b with
      | some high, some low =>
          UInt8.ofNat (16 * high + low) :: percentBytes rest
      | _, _ => 0x25 :: percentBytes (a :: b :: rest)
  | c :: rest => (String.ofList [c]).toUTF8.toList ++ percentBytes rest

/-- The text that a text stands for, if its bytes are UTF-8. -/
def percentDecode? (cs : List Char) : Option String :=
  String.fromUTF8? ⟨(percentBytes cs).toArray⟩

end KnnOracle.Text
