/-
Tables read back.

A table of records keeps all there is to them. The reader goes over a
table in batches. A batch of a table of records is the table of some of
them, so it is enough to read one table of records, and then to go over
the sizes of the batches.
-/
import Mathlib
import KnnOracle.Dataset.Columns

namespace KnnOracle

-- ============================================================== batches

namespace Storage.Table

/-- The batches hold all rows between them, so reading all of them leaves no
row out. -/
theorem sum_batchSizes (size rows : Nat) :
    (batchSizes size rows).sum = rows := by
  have hrows := Nat.div_add_mod rows size
  rw [Nat.mul_comm] at hrows
  rw [batchSizes, List.sum_append, List.sum_replicate_nat]
  split
  · next h => simpa [h] using hrows
  · simpa using hrows

end Storage.Table

namespace Columnar

open Storage

/-- Cutting a written table is writing fewer records, so its batches are tables
of this kind again. -/
private theorem take_write (n : Nat) (records : List Record) :
    (write records).take n = write (records.take n) := by
  simp [write, Table.take, Column.take, List.map_take]

private theorem drop_write (n : Nat) (records : List Record) :
    (write records).drop n = write (records.drop n) := by
  simp [write, Table.drop, Column.drop, List.map_drop]

private theorem rowCount_write (records : List Record) :
    (write records).rowCount = records.length := by
  simp [write, Table.rowCount, Column.length]

-- =========================================================== one table

variable {dimension : Nat}

/-- The row of a record is judged to be the record: the id is a word, the
vector has the dimension and no item is missing. -/
theorem judge_row (columns : ColumnNames) {r : Record}
    (h : r.dimension = dimension) (row : Nat) :
    judge columns dimension row (some (r.id.value.toNat : Int))
      (some (r.values.map some))
      = .ok r := by
  have hvalues : (r.values.map some).mapM (fun item => item)
      = some r.values := by
    rw [List.mapM_map]
    exact (List.mapM_pure).trans (congrArg some (List.map_id r.values))
  have hlength : ¬r.values.length ≠ dimension := not_not_intro h
  simp [judge, hvalues, hlength]

/-- Rows that were written of records are judged to be those records: ids are
not negative, and nothing is missing. -/
private theorem judgeAll_rows (columns : ColumnNames) {records : List Record}
    (h : ∀ r ∈ records, r.dimension = dimension) (row : Nat) :
    judgeAll columns dimension row
        ((records.map fun r => some (r.id.value.toNat : Int)).zip
          (records.map fun r => some (r.values.map some))) = .ok records := by
  induction records generalizing row with
  | nil => rfl
  | cons r rest ih =>
      have hrest := ih fun s hs => h s (List.mem_cons_of_mem r hs)
      simp only [List.map_cons, List.zip_cons_cons, judgeAll,
        judge_row columns (h r List.mem_cons_self), hrest]

/-- A table of records is read back in one batch. -/
theorem readBatch_write {records : List Record}
    (h : ∀ r ∈ records, r.dimension = dimension) (row : Nat) :
    readBatch {} dimension row (write records) = .ok records :=
  judgeAll_rows {} h row

-- ========================================================= all batches

/-- Batches give back the records in the rows that they cover, wherever the
cuts are. -/
theorem readBatches_cut {records : List Record}
    (h : ∀ r ∈ records, r.dimension = dimension) (sizes : List Nat)
    (row : Nat) :
    readBatches {} dimension row ((write records).cut sizes)
      = .ok (records.take sizes.sum) := by
  induction sizes generalizing records row with
  | nil => rfl
  | cons n sizes ih =>
      have hhead : ∀ r ∈ records.take n, r.dimension = dimension := fun r hr =>
        h r (List.mem_of_mem_take hr)
      have htail : ∀ r ∈ records.drop n, r.dimension = dimension := fun r hr =>
        h r (List.mem_of_mem_drop hr)
      rw [Table.cut, take_write, drop_write, readBatches,
        readBatch_write hhead row]
      simp only [ih htail, List.sum_cons, List.take_add]

/-- A table is read back as it was written, if its records have one dimension.
The batches in which it is read do not show. -/
theorem read_write {records : List Record}
    (h : ∀ r ∈ records, r.dimension = dimension) :
    read {} dimension (write records) = .ok records := by
  rw [read, Table.batches, readBatches_cut h, Table.sum_batchSizes,
    rowCount_write, List.take_length]

end Columnar

end KnnOracle
