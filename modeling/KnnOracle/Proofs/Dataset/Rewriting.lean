/-
Files of rows written again.

What is written is read with ids of its own and with components rounded to
binary32, and such records are written as the same bytes. What is read is
written as the bytes that it was read from: a row keeps its header, which
announces what is there, and its words, unless one of them is a NaN, whose
payload nothing keeps. `write_restores` states both directions.
-/
import Mathlib
import KnnOracle.Proofs.Dataset.Fvecs
import KnnOracle.Proofs.Dataset.Rows
import KnnOracle.Proofs.Decimal.Widening

namespace KnnOracle.Fvecs

open Decimal

-- ============================================================ one word

/-- Narrowing the binary32 that a word spells gives the word, unless it is a
NaN, of which only one is written. -/
theorem narrow_widen_word {word : List UInt8} (hlength : word.length = 4)
    (hnan : (BinaryFormat.binary32.widen (ofLittleEndian word)).isNaN
      = false) :
    littleEndian 4
      (BinaryFormat.binary32.narrow
        (BinaryFormat.binary32.widen (ofLittleEndian word)))
      = word := by
  have hlt := ofLittleEndian_lt word
  rw [hlength] at hlt
  have hbits : ¬BinaryFormat.binary32.IsNaNBits (ofLittleEndian word) :=
      fun h => by
    rw [BinaryFormat.isNaN_widen h] at hnan
    cases hnan
  rw [BinaryFormat.narrow_widen BinaryFormat.isNarrower_binary32 hlt hbits]
  exact littleEndian_ofLittleEndian hlength

/-- Components that are read are written as they were. -/
theorem componentBytes_components {dimension : Nat} {bytes : List UInt8}
    (hlength : bytes.length = 4 * dimension)
    (hnan : ∀ v ∈ components bytes, v.isNaN = false) :
    componentBytes (components bytes) = bytes := by
  induction dimension generalizing bytes with
  | zero =>
      obtain rfl : bytes = [] := List.eq_nil_of_length_eq_zero hlength
      simp [components, componentBytes, chunks]
  | succ dimension ih =>
      have hword : (bytes.take 4).length = 4 := by
        rw [List.length_take]
        omega
      have hrest : (bytes.drop 4).length = 4 * dimension := by
        rw [List.length_drop]
        omega
      have hcut : components bytes
          = BinaryFormat.binary32.widen (ofLittleEndian (bytes.take 4))
            :: components (bytes.drop 4) := by
        have hchunks := chunks_append (by decide : 0 < 4) hword (bytes.drop 4)
        rw [List.take_append_drop] at hchunks
        rw [components, hchunks, List.map_cons, ← components]
      rw [hcut] at hnan ⊢
      obtain ⟨hfirst, hothers⟩ := List.forall_mem_cons.mp hnan
      rw [componentBytes, List.flatMap_cons, narrow_widen_word hword hfirst,
        ← componentBytes, ih hrest hothers, List.take_append_drop]

-- ============================================================= one row

/-- The header of a row is its dimension, in the four bytes in which it would
be written. -/
private theorem littleEndian_header {dimension : Nat} {row : List UInt8}
    (h : IsRow dimension row) :
    littleEndian 4 dimension = row.take 4 := by
  have hlength : (row.take 4).length = 4 := by
    rw [List.length_take, h.length_eq, rowSize]
    omega
  have hlt : ofLittleEndian (row.take 4) < 2 ^ 32 := by
    have hbytes := ofLittleEndian_lt (row.take 4)
    rw [hlength] at hbytes
    omega
  have hword : ofLittleEndian (row.take 4) = dimension := by
    have hheader : _ = (dimension : Int) :=
      (bmod_word hlt).symm.trans h.header_eq
    generalize ofLittleEndian (row.take 4) = n at hlt hheader ⊢
    split at hheader <;> omega
  rw [← hword]
  exact littleEndian_ofLittleEndian hlength

/-- A row that is read is written as it was, byte by byte, unless it holds a
NaN. -/
theorem rowBytes_recordOf {dimension i : Nat} {row : List UInt8}
    (h : IsRow dimension row)
    (hnan : ∀ v ∈ (recordOf dimension i row).values, v.isNaN = false) :
    rowBytes (recordOf dimension i row) = row := by
  have hlength : (row.drop 4).length = 4 * dimension := by
    rw [List.length_drop, h.length_eq, rowSize]
    omega
  have hread : components (row.drop 4)
      = (recordOf dimension i row).values := by
    have hrow := @components_row dimension row h.length_eq.ge
    rwa [List.take_of_length_le hlength.le,
      List.take_of_length_le h.length_eq.le] at hrow
  have hdimension : (recordOf dimension i row).dimension = dimension := by
    simp [Record.dimension, recordOf]
  rw [← hread] at hnan
  rw [rowBytes_eq, hdimension, littleEndian_header h, ← hread,
    componentBytes_components hlength hnan, List.take_append_drop]

/-- A record is written as what was read of it, since rounding twice is
rounding once. -/
theorem rowBytes_roundTo (id id' : RecordId) (values : List Float) :
    rowBytes ⟨id, values.map BinaryFormat.binary32.roundTo⟩
      = rowBytes ⟨id', values⟩ := by
  unfold rowBytes Record.dimension
  rw [List.length_map, List.flatMap_map]
  simp only [BinaryFormat.narrow_roundTo BinaryFormat.isNarrower_binary32]

-- ============================================================ the file

/-- What rows cannot hold is lost the first time, so that writing what was
restored writes the same rows. -/
private theorem write_restored (row : Nat) (records : List Record) :
    write (restored row records) = write records := by
  induction records generalizing row with
  | nil => rfl
  | cons r rest ih =>
      have hrest := ih (row + 1)
      unfold write at hrest ⊢
      rw [restored, List.flatMap_cons, List.flatMap_cons, hrest,
        rowBytes_roundTo _ r.id]

/-- The records of some rows are written as these rows: a component that was
widened narrows to its own bits, unless it is a NaN. -/
private theorem write_mapIdx {dimension : Nat} {rows : List (List UInt8)}
    (h : ∀ row ∈ rows, IsRow dimension row) (i : Nat)
    (hnan : ∀ r ∈ rows.mapIdx (fun j => recordOf dimension (i + j)),
      ∀ v ∈ r.values, v.isNaN = false) :
    write (rows.mapIdx fun j => recordOf dimension (i + j))
      = rows.flatten := by
  induction rows generalizing i with
  | nil => rfl
  | cons row rows ih =>
      obtain ⟨hrow, hrows⟩ := List.forall_mem_cons.mp h
      have hindex : ∀ j, i + 1 + j = i + (j + 1) := fun j => by omega
      have hrest := ih hrows (i + 1)
      simp only [hindex] at hrest
      rw [List.mapIdx_cons] at hnan ⊢
      obtain ⟨hfirst, hothers⟩ := List.forall_mem_cons.mp hnan
      unfold write at hrest ⊢
      rw [List.flatMap_cons, hrest hothers, rowBytes_recordOf hrow hfirst,
        List.flatten_cons]

/-- What was read of a file is written as the file, unless the file holds a
NaN. -/
theorem write_of_parse {dimension : Nat} {bytes : List UInt8}
    {records : List Record} (h : parse dimension bytes = .ok records)
    (hnan : ∀ r ∈ records, ∀ v ∈ r.values, v.isNaN = false) :
    write records = bytes := by
  obtain ⟨rows, rfl, hrows, rfl⟩ := parse_eq_ok_iff.mp h
  have hindex : recordOf dimension = fun j => recordOf dimension (0 + j) := by
    funext j
    rw [Nat.zero_add]
  rw [hindex] at hnan ⊢
  exact write_mapIdx hrows 0 hnan

-- ==================================================== the main statement

/-- Writing and reading undo each other: what is written is read back in
order, with its number as its id and rounded to binary32, and a second time
neither the file nor what is read of it changes; and what is read is written
as the file that it was read from, unless a component is a NaN. -/
theorem write_restores (dimension : Nat) :
    (dimension < 2 ^ 31 → ∀ records : List Record,
      (∀ r ∈ records, r.dimension = dimension) →
      ∃ parsed : List Record, parse dimension (write records) = .ok parsed ∧
        parsed.length = records.length ∧
        (∀ (i : Nat) (r : Record), records[i]? = some r → parsed[i]? = some
          ⟨⟨UInt64.ofNat i⟩, r.values.map fun v =>
            BinaryFormat.binary32.widen (BinaryFormat.binary32.narrow v)⟩) ∧
        write parsed = write records ∧
        parse dimension (write parsed) = .ok parsed) ∧
    ∀ bytes records, parse dimension bytes = .ok records →
      (∀ r ∈ records, ∀ v ∈ r.values, v.isNaN = false) →
      write records = bytes := by
  constructor
  · intro hdim records h
    have hread := parse_write hdim h
    refine ⟨restored 0 records, hread, length_restored 0 records, ?_,
      write_restored 0 records, ?_⟩
    · intro i r hr
      rw [getElem?_restored, hr, Option.map_some, Nat.zero_add]
      rfl
    · rw [write_restored]
      exact hread
  · exact fun bytes records => write_of_parse

end KnnOracle.Fvecs
