/-
Records in tables.

One column holds ids, integers of any width, and one holds embeddings,
lists of floating-point numbers. Rows are judged one by one: the id must
be there and not negative, the embedding and all its components must be
there, and they must be as many as asked for.

A table is read in batches. The column types are looked at once a batch,
so a table without rows is never looked at.
-/
import KnnOracle.Dataset.Fault

namespace KnnOracle.Columnar

open Storage

/-- The names of the two columns. -/
structure ColumnNames where
  id : String := "id"
  embedding : String := "emb"

-- ============================================================== reading

/-- The ids in a column of integers. -/
def ids? (name : String) : Column → Except DatasetFault (List (Option Int))
  | .integers _ _ values => .ok values
  | column => .error (.unexpectedColumnType name column.typeText)

/-- The embeddings in a column of lists. -/
def embeddings? (name : String) :
    Column → Except DatasetFault (List (Option (List (Option Float))))
  | .lists shape item rows =>
      if item.isFloating then .ok rows
      else .error (.unexpectedColumnType name
        (Column.lists shape item rows).typeText)
  | column => .error (.unexpectedColumnType name column.typeText)

/-- The column with a name. -/
def column? (t : Table) (name : String) : Except DatasetFault Column :=
  match t.column? name with
  | some column => .ok column
  | none => .error (.missingColumn name)

/-- Makes a record of one row. -/
def judge (columns : ColumnNames) (dimension row : Nat) (id : Option Int)
    (embedding : Option (List (Option Float))) : Except DatasetFault Record :=
  match id with
  | some (.ofNat n) =>
      match embedding.bind fun items => items.mapM (fun item => item) with
      | none => .error (.nullValue columns.embedding row)
      | some values =>
          if values.length ≠ dimension then
            .error (.dimensionMismatch row dimension values.length)
          else .ok ⟨⟨UInt64.ofNat n⟩, values⟩
  | _ => .error (.nullValue columns.id row)

/-- Judges rows in order; `row` is the number of the first. -/
def judgeAll (columns : ColumnNames) (dimension row : Nat) :
    List (Option Int × Option (List (Option Float))) →
      Except DatasetFault (List Record)
  | [] => .ok []
  | (id, embedding) :: rest =>
      match judge columns dimension row id embedding with
      | .error e => .error e
      | .ok r =>
          match judgeAll columns dimension (row + 1) rest with
          | .error e => .error e
          | .ok records => .ok (r :: records)

/-- Reads one batch, whose first row has the number `row`. -/
def readBatch (columns : ColumnNames) (dimension row : Nat) (t : Table) :
    Except DatasetFault (List Record) := do
  let ids ← ids? columns.id (← column? t columns.id)
  let embeddings ← embeddings? columns.embedding
    (← column? t columns.embedding)
  judgeAll columns dimension row (ids.zip embeddings)

/-- Reads batches in order. -/
def readBatches (columns : ColumnNames) (dimension row : Nat) :
    List Table → Except DatasetFault (List Record)
  | [] => .ok []
  | t :: rest =>
      match readBatch columns dimension row t with
      | .error e => .error e
      | .ok head =>
          match readBatches columns dimension (row + head.length) rest with
          | .error e => .error e
          | .ok tail => .ok (head ++ tail)

/-- Reads a whole table. -/
def read (columns : ColumnNames) (dimension : Nat) (t : Table) :
    Except DatasetFault (List Record) :=
  readBatches columns dimension 0 t.batches

-- ============================================================== writing

/-- A table of records: ids without sign and lists of binary64. -/
def write (records : List Record) : Table :=
  ⟨[("id", .integers false 64
    (records.map fun r => some (r.id.value.toNat : Int))),
    ("emb", .lists .list .float64
      (records.map fun r => some (r.values.map some)))]⟩

end KnnOracle.Columnar
