/-
The JSON Lines format.

A file is text with one record a line. Lines end at a line feed, and a
carriage return in front of it is no part of the line; what follows the
last line feed is a line only if it holds something. Lines of blanks are
passed over, but they count.

`readLines` stops at the first line that is no text, no record, or a
record of another dimension; no later line has any say.
-/
import KnnOracle.Dataset.Fault
import KnnOracle.Pieces
import KnnOracle.Text.Blank
import KnnOracle.Wire.Basic

namespace KnnOracle.JsonLines

-- ============================================================== reading

/-- A line feed. -/
def lineFeed : UInt8 := 0x0A

/-- Drops a carriage return at the end. -/
def dropReturn (line : List UInt8) : List UInt8 :=
  if line.getLast? = some 0x0D then line.dropLast else line

/-- The lines of a file. All pieces but the last ended at a line feed. -/
def lines (bytes : List UInt8) : List (List UInt8) :=
  let all := pieces (· == lineFeed) bytes
  let ended := all.dropLast.map dropReturn
  match all.getLast? with
  | some (b :: rest) => ended ++ [b :: rest]
  | _ => ended

/-- The text that bytes spell. -/
def textOf? (bytes : List UInt8) : Option String :=
  String.fromUTF8? ⟨bytes.toArray⟩

/-- Reads lines with a reader of single lines. `line` is the number of the
first of them and `row` counts the records before. -/
def readLines (record? : String → Option Record) (dimension : Nat)
    (line row : Nat) :
    List (List UInt8) → Except DatasetFault (List Record)
  | [] => .ok []
  | bytes :: rest =>
      match textOf? bytes with
      | none => .error (.file .notText)
      | some text =>
          if Text.isBlankText text then
            readLines record? dimension (line + 1) row rest
          else
            match record? text with
            | none => .error (.malformedLine line)
            | some r =>
                if r.dimension ≠ dimension then
                  .error (.dimensionMismatch row dimension r.dimension)
                else
                  match readLines record? dimension (line + 1) (row + 1)
                    rest with
                  | .error e => .error e
                  | .ok records => .ok (r :: records)

/-- Reads one line as a record. -/
def record? (text : String) : Option Record := Json.decode? Record.ofJson? text

/-- Reads a whole file. -/
def parse (dimension : Nat) (bytes : List UInt8) :
    Except DatasetFault (List Record) :=
  readLines record? dimension 1 0 (lines bytes)

-- ============================================================== writing

/-- The text of a file. -/
def write (records : List Record) : String :=
  String.ofList (records.flatMap fun r => r.toJson.chars ++ ['\n'])

end KnnOracle.JsonLines
