/-
Why a dataset cannot be read, written or made.

Rows count from zero, lines from one. The wording of a cause is
`DatasetFault.message`.
-/
import KnnOracle.Fault
import KnnOracle.Storage.Content

namespace KnnOracle

/-- A cause of refusal. -/
inductive DatasetFault where
  /-- The file cannot be reached, or is no text. -/
  | file (cause : Storage.FileFault)
  /-- A line that is no record. -/
  | malformedLine (line : Nat)
  | dimensionMismatch (row expected found : Nat)
  /-- A row that the file ends in. -/
  | truncated (offset : Nat)
  /-- A file that should hold a table and does not. -/
  | notTable
  | missingColumn (name : String)
  | unexpectedColumnType (column found : String)
  | nullValue (column : String) (row : Nat)
  | unsupportedFormat (path : String)
  | idOverflow (firstId : UInt64) (count : Nat)
  | invalidPerturbation (degree : Float)
  /-- Noise whose range is wider than any number. -/
  | noiseTooWide (degree : Float)
  /-- A list that there is no room for. -/
  | noRoom

namespace DatasetFault

/-- The wording of a cause. -/
def message : DatasetFault → String
  | .file cause => "IO error: " ++ cause.message
  | .malformedLine line => "Invalid JSON on line " ++ toString line
  | .dimensionMismatch row expected found =>
      "Row " ++ toString row ++ ": dimension mismatch: expected "
        ++ toString expected
        ++ ", found " ++ toString found
  | .truncated offset => "Truncated row at byte offset " ++ toString offset
  | .notTable => "Parquet error"
  | .missingColumn name => "Column " ++ name ++ " not found"
  | .unexpectedColumnType column found =>
      "Column " ++ column ++ " has unsupported type " ++ found
  | .nullValue column row =>
      "Row " ++ toString row ++ ": null in column " ++ column
  | .unsupportedFormat path => "Unsupported dataset format: " ++ path
  | .idOverflow firstId count =>
      "Query ids starting at " ++ toString firstId.toNat
        ++ " overflow u64 for "
        ++ toString count ++ " queries"
  | .invalidPerturbation degree =>
      "Invalid parameter perturbation: " ++ Decimal.plain degree
  | .noiseTooWide _ => "range overflow"
  | .noRoom => "capacity overflow"

/-- Whether a cause stops the program at once. -/
def isAbrupt : DatasetFault → Bool
  | .noiseTooWide _ | .noRoom => true
  | _ => false

end DatasetFault

end KnnOracle
