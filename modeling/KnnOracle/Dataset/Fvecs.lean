/-
The fvecs format.

A file is a sequence of rows. A row is the number of its components as a
little-endian signed 32-bit word, then the components as little-endian
binary32 numbers. Ids are not stored: the id of a record is its place in
the file.

`parse` reads rows of one given dimension and stops at the first that is
not complete or has another dimension; a wrong dimension is reported
even where the row is cut short. `write` narrows components to binary32.
-/
import KnnOracle.Bytes
import KnnOracle.Chunks
import KnnOracle.Dataset.Fault
import KnnOracle.Powers

namespace KnnOracle.Fvecs

open Decimal

-- ============================================================== reading

/-- The number of components that a header announces; a negative header
announces none. -/
def announced (header : Nat) : Nat := if header < 2 ^ 31 then header else 0

/-- The components of a row. -/
def components (bytes : List UInt8) : List Float :=
  (chunks 4 bytes).map fun word =>
    BinaryFormat.binary32.widen (ofLittleEndian word)

/-- Reads rows up to the end of the bytes. `row` counts the rows before,
`offset` their bytes. -/
def parseFrom (dimension row offset : Nat) (bytes : List UInt8) :
    Except DatasetFault (List Record) :=
  match bytes with
  | [] => .ok []
  | b0 :: b1 :: b2 :: b3 :: rest =>
      let header := ofLittleEndian [b0, b1, b2, b3]
      if header ≥ 2 ^ 31 ∨ header ≠ dimension then
        .error (.dimensionMismatch row dimension (announced header))
      else
        let values := rest.take (4 * dimension)
        if values.length < 4 * dimension then .error (.truncated offset)
        else
          match parseFrom dimension (row + 1) (offset + 4 + 4 * dimension)
              (rest.drop (4 * dimension)) with
          | .error e => .error e
          | .ok records =>
              .ok (⟨⟨UInt64.ofNat row⟩, components values⟩ :: records)
  | _ => .error (.truncated offset)
termination_by bytes.length
decreasing_by simp only [List.length_drop, List.length_cons]; omega

/-- Reads a whole file. -/
def parse (dimension : Nat) (bytes : List UInt8) :
    Except DatasetFault (List Record) :=
  parseFrom dimension 0 0 bytes

-- ============================================================== writing

/-- The bytes of a row. -/
def rowBytes (r : Record) : List UInt8 :=
  littleEndian 4 r.dimension
    ++ r.values.flatMap fun v =>
      littleEndian 4 (BinaryFormat.binary32.narrow v)

/-- The bytes of a file. -/
def write (records : List Record) : List UInt8 := records.flatMap rowBytes

end KnnOracle.Fvecs
