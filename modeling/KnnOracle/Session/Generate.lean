/-
Writing synthetic corpora to files.

The extension of the path chooses the format. Whoever loads the file with
the same dimension gets the records back, in the same order, as far as
the format can hold them.
-/
import KnnOracle.Corpus
import KnnOracle.Session.Failure
import KnnOracle.Session.Settings

namespace KnnOracle

/-- The corpus to be written, and where to. -/
structure GenerateRequest where
  path : String
  count : Nat := 2000
  dimension : Nat := 5
  seed : UInt64 := 42

/-- A corpus that is ready to be written. -/
structure Generated where
  request : GenerateRequest
  corpus : Corpus
  format : Dataset.Format

/-- The format that an extension in lower-case letters asks for. -/
def outputFormat? : String → Option Dataset.Format
  | "fvecs" => some .fvecs
  | "jsonl" | "ndjson" => some .lines
  | "parquet" => some .columns
  | _ => none

/-- Makes the corpus. -/
def GenerateRequest.prepare (r : GenerateRequest) : Except Failure Generated :=
  match Synthetic.corpus? r.seed r.count r.dimension with
  | .error e => .error (.recordsNotMade e)
  | .ok records =>
      match Corpus.make? r.dimension records with
      | .error e => .error (.corpusNotMade e)
      | .ok corpus =>
          let extension := Storage.extension r.path
          match outputFormat? extension with
          | none => .error (.unknownOutputFormat extension)
          | some format => .ok ⟨r, corpus, format⟩

/-- The content of the file. -/
def Generated.content (g : Generated) : Storage.Content :=
  Dataset.render g.format g.corpus.records

end KnnOracle
