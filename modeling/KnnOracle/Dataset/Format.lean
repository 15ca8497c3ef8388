/-
Dataset files.

The extension of a path chooses the format: `fvecs`, JSON Lines under
either of its extensions, or a columnar table. A file can be written in
every format it can be read in, and in no other.
-/
import KnnOracle.Dataset.Columns
import KnnOracle.Dataset.Fvecs
import KnnOracle.Dataset.Lines
import KnnOracle.Storage.FileSystem
import KnnOracle.Storage.Path

namespace KnnOracle.Dataset

open Storage

/-- The formats of dataset files. -/
inductive Format where
  | fvecs
  | lines
  | columns
deriving DecidableEq, Repr

/-- The format of an extension in lower-case letters. -/
def Format.ofExtension? (extension : String) : Option Format :=
  if extension = "fvecs" then some .fvecs
  else if extension = "jsonl" ∨ extension = "ndjson" then some .lines
  else if extension = "parquet" then some .columns
  else none

-- ============================================================== reading

/-- The table that a file holds. -/
def table? : Content → Except DatasetFault Table
  | .table t => .ok t
  | .bytes _ => .error .notTable

/-- Reads a content in a format. -/
def parse (format : Format) (dimension : Nat) (content : Content) :
    Except DatasetFault (List Record) :=
  match format with
  | .fvecs => Fvecs.parse dimension content.data
  | .lines => JsonLines.parse dimension content.data
  | .columns => do Columnar.read {} dimension (← table? content)

/-- Opens a file of a format. A folder can be opened like a file, but it
holds no table. -/
def openFile (read : Reader) (format : Format) (path : String) :
    Except DatasetFault Content :=
  match read path with
  | .ok content => .ok content
  | .error e =>
      if format = .columns ∧ e = .isDirectory then .error .notTable
      else .error (.file e)

/-- Loads the records of a file, all of one dimension. -/
def load (read : Reader) (path : String) (dimension : Nat) :
    Except DatasetFault (List Record) :=
  match Format.ofExtension? (extension path) with
  | none => .error (.unsupportedFormat path)
  | some format => do parse format dimension (← openFile read format path)

/-- Loads the records of a columnar file from the columns named. -/
def loadColumns (read : Reader) (path : String)
    (columns : Columnar.ColumnNames) (dimension : Nat) :
    Except DatasetFault (List Record) := do
  let content ← openFile read .columns path
  Columnar.read columns dimension (← table? content)

-- ============================================================== writing

/-- The content of a file of records. -/
def render (format : Format) (records : List Record) : Content :=
  match format with
  | .fvecs => .bytes (Fvecs.write records)
  | .lines => .bytes (JsonLines.write records).toUTF8.toList
  | .columns => .table (Columnar.write records)

/-- Writes records to a file. -/
def save {σ : Type} [FileSystem σ] (files : σ) (path : String)
    (format : Format) (records : List Record) : Except DatasetFault σ :=
  match FileSystem.write files path (render format records) with
  | .ok files => .ok files
  | .error e => .error (.file e)

end KnnOracle.Dataset
