/-
Rows of numbers read back.

A file of rows keeps of records their number, their order and their
components narrowed to binary32. A row announces its components, so that
what is written after it is out of its reader's sight; with that one row
is read, and the file by induction on the records.
-/
import KnnOracle.Dataset.Fvecs

namespace KnnOracle

-- ============================================================= numbers

namespace Decimal.BinaryFormat

/-- A narrowed number fits into its four bytes. -/
theorem narrow_binary32_lt (x : Float) : binary32.narrow x < 256 ^ 4 := by
  have hinfinity : binary32.infinityBits = 0x7F800000 := by decide
  have hquiet : binary32.quietBits = 0x7FC00000 := by decide
  have hsign :
      (if isNegative x then
          2 ^ (binary32.fractionBits + binary32.exponentBits)
        else 0) ≤ 0x80000000 := by
    split <;> decide
  have hrounded (d : Dyadic) : binary32.roundBits d ≤ 0x7F800000 := by
    rw [← hinfinity]
    exact Nat.min_le_right _ _
  simp only [narrow]
  split
  · omega
  · omega
  · next d _ =>
      have := hrounded d
      split <;> omega

end Decimal.BinaryFormat

namespace Fvecs

open Decimal

-- ============================================================= one row

/-- The bytes of components. -/
def componentBytes (values : List Float) : List UInt8 :=
  values.flatMap fun v => littleEndian 4 (BinaryFormat.binary32.narrow v)

theorem rowBytes_eq (r : Record) :
    rowBytes r = littleEndian 4 r.dimension ++ componentBytes r.values := rfl

/-- A component takes four bytes, which is how the reader knows where a row
ends. -/
private theorem length_componentBytes (values : List Float) :
    (componentBytes values).length = 4 * values.length := by
  induction values with
  | nil => rfl
  | cons v values ih =>
      rw [componentBytes, List.flatMap_cons, List.length_append,
        length_littleEndian, ← componentBytes, ih, List.length_cons]
      omega

/-- Components are read back rounded to binary32, as the writer has narrowed
them. Widening loses nothing. -/
theorem components_componentBytes (values : List Float) :
    components (componentBytes values)
      = values.map BinaryFormat.binary32.roundTo := by
  induction values with
  | nil => simp [components, componentBytes, chunks]
  | cons v values ih =>
      rw [components, componentBytes, List.flatMap_cons,
        chunks_append (by decide) (length_littleEndian 4 _), List.map_cons,
        ofLittleEndian_littleEndian (BinaryFormat.narrow_binary32_lt v),
          ← componentBytes,
        ← components, ih]
      rfl

/-- A row is read whatever follows it, and the reader goes on behind it with
the next row number. -/
theorem parseFrom_rowBytes {r : Record} {dimension : Nat}
    (hrow : r.dimension = dimension) (hdim : dimension < 2 ^ 31)
    {row offset : Nat} {rest : List UInt8} {records : List Record}
    (hrest : parseFrom dimension (row + 1) (offset + 4 + 4 * dimension) rest
      = .ok records) :
    parseFrom dimension row offset (rowBytes r ++ rest) =
      .ok (⟨⟨UInt64.ofNat row⟩, r.values.map BinaryFormat.binary32.roundTo⟩
        :: records) := by
  obtain ⟨b0, b1, b2, b3, hheader⟩ :
      ∃ b0 b1 b2 b3, littleEndian 4 r.dimension = [b0, b1, b2, b3] :=
        ⟨_, _, _, _, rfl⟩
  have hannounced : ofLittleEndian [b0, b1, b2, b3] = dimension := by
    rw [← hheader, hrow, ofLittleEndian_littleEndian (by omega)]
  have hlength : (componentBytes r.values).length = 4 * dimension := by
    rw [length_componentBytes, ← hrow]
    rfl
  have hfits : ¬(dimension ≥ 2 ^ 31 ∨ dimension ≠ dimension) := by omega
  rw [rowBytes_eq, hheader, List.append_assoc, List.cons_append,
    List.cons_append, List.cons_append, List.cons_append, List.nil_append,
    parseFrom]
  simp only [hannounced, if_neg hfits, List.take_left' hlength,
    List.drop_left' hlength, hlength, Nat.lt_irrefl, if_false,
    components_componentBytes, hrest]

-- ============================================================= the file

/-- What is left of records in a file whose first row has the number
`row`. -/
def restored (row : Nat) : List Record → List Record
  | [] => []
  | r :: rest =>
      ⟨⟨UInt64.ofNat row⟩, r.values.map BinaryFormat.binary32.roundTo⟩
        :: restored (row + 1) rest

/-- As many records are restored as were written. -/
theorem length_restored (row : Nat) (records : List Record) :
    (restored row records).length = records.length := by
  induction records generalizing row with
  | nil => rfl
  | cons r rest ih => rw [restored, List.length_cons, List.length_cons, ih]

/-- Every record stands at its old place and has its number as its id. The old
ids are lost, since the format has no room for them. -/
theorem getElem?_restored (row : Nat) (records : List Record) (i : Nat) :
    (restored row records)[i]? = records[i]?.map fun r =>
      ⟨⟨UInt64.ofNat (row + i)⟩,
        r.values.map BinaryFormat.binary32.roundTo⟩ := by
  induction records generalizing row i with
  | nil => simp [restored]
  | cons r rest ih =>
      cases i with
      | zero => rfl
      | succ i =>
          rw [restored, List.getElem?_cons_succ, List.getElem?_cons_succ, ih,
          Nat.add_right_comm, Nat.add_assoc]

/-- By induction over the records: the row in front is taken off whole, and the
reader goes on with the number of the next. -/
private theorem parseFrom_write {dimension : Nat} (hdim : dimension < 2 ^ 31)
    {records : List Record} (h : ∀ r ∈ records, r.dimension = dimension)
    (row offset : Nat) :
    parseFrom dimension row offset (write records)
      = .ok (restored row records) := by
  induction records generalizing row offset with
  | nil => simp [write, parseFrom, restored]
  | cons r rest ih =>
      have hrest := ih fun s hs => h s (List.mem_cons_of_mem r hs)
      exact parseFrom_rowBytes (h r List.mem_cons_self) hdim
        (hrest (row + 1) _)

/-- A file is read back with the dimension of its records. -/
theorem parse_write {dimension : Nat} (hdim : dimension < 2 ^ 31)
    {records : List Record} (h : ∀ r ∈ records, r.dimension = dimension) :
    parse dimension (write records) = .ok (restored 0 records) :=
  parseFrom_write hdim h 0 0

end Fvecs

end KnnOracle
