/-
Datasets read back.

In every format, what was written is read back with the dimension of its
records: all of it in lines and tables, and in rows what rows can hold
(`Format.restored`). The extension of the path says which format a file
is in, to the reader as to the writer.
-/
import Mathlib
import KnnOracle.Dataset.Format
import KnnOracle.Proofs.Dataset.Columns
import KnnOracle.Proofs.Dataset.Fvecs
import KnnOracle.Proofs.Dataset.Lines

namespace KnnOracle.Dataset

open Storage

namespace Format

/-- The extensions of a format, in lower-case letters. -/
def extensions : Format → List String
  | .fvecs => ["fvecs"]
  | .lines => ["jsonl", "ndjson"]
  | .columns => ["parquet"]

/-- The reader's table of extensions is the list of extensions that each format
has, so no extension stands for two formats. -/
theorem ofExtension?_eq_some_iff {extension : String} {format : Format} :
    ofExtension? extension = some format ↔ extension ∈ format.extensions := by
  unfold ofExtension?
  constructor
  · intro h
    split at h
    · next heq =>
        cases h
        simp [extensions, heq]
    split at h
    · next heq =>
        cases h
        simpa [extensions] using heq
    split at h
    · next heq =>
        cases h
        simp [extensions, heq]
    · cases h
  · intro h
    cases format with
    | fvecs => simp [List.mem_singleton.mp h]
    | lines =>
        obtain heq | heq : extension = "jsonl" ∨ extension = "ndjson" := by
          simpa [extensions] using h
        · simp [heq]
        · simp [heq]
    | columns => simp [List.mem_singleton.mp h]

example : ofExtension? (extension "sets/Corpus.JsonL") = some .lines := by
  decide

/-- What is in none of these lists has no format. -/
private theorem ofExtension?_eq_none_iff {extension : String} :
    ofExtension? extension = none ↔
      ∀ format : Format, extension ∉ format.extensions := by
  simp only [Option.eq_none_iff_forall_ne_some, ne_eq,
    ofExtension?_eq_some_iff]

/-- What a format restores of records. -/
def restored : Format → List Record → List Record
  | .fvecs, records => Fvecs.restored 0 records
  | .lines, records => records
  | .columns, records => records

end Format

variable {dimension : Nat} {records : List Record}

/-- What was written in a format is read in the same format. The records come
back as the format keeps them: rounded to binary32 and numbered anew in one of
the three. -/
theorem parse_render (format : Format) (hdim : dimension < 2 ^ 31)
    (h : ∀ r ∈ records, r.dimension = dimension ∧ r.firstNonFinite? = none) :
    parse format dimension (render format records)
      = .ok (format.restored records) := by
  have hrecords : ∀ r ∈ records, r.dimension = dimension :=
    fun r hr => (h r hr).1
  cases format with
  | fvecs => exact Fvecs.parse_write hdim hrecords
  | lines => exact JsonLines.parse_write h
  | columns => exact Columnar.read_write hrecords

/-- What was written under a path is loaded from it. Of the disk nothing is
used but that a write can be read again. -/
theorem load_of_write {σ : Type} [FileSystem σ] {files after : σ}
    {format : Format} {path : String}
    (hformat : extension path ∈ format.extensions) (hdim : dimension < 2 ^ 31)
    (h : ∀ r ∈ records, r.dimension = dimension ∧ r.firstNonFinite? = none)
    (hwrite : FileSystem.write files path (render format records)
      = .ok after) :
    load (FileSystem.read after) path dimension
      = .ok (format.restored records) := by
  have hopen : openFile (FileSystem.read after) format path
      = .ok (render format records) := by
    rw [openFile, FileSystem.read_of_write hwrite]
  rw [load, Format.ofExtension?_eq_some_iff.mpr hformat]
  dsimp only
  rw [hopen]
  exact parse_render format hdim h

/-- Nothing is loaded from a path with another extension, whatever is stored
under it. -/
theorem load_unsupported {path : String}
    (h : ∀ format : Format, extension path ∉ format.extensions)
    (files : Reader) :
    load files path dimension = .error (.unsupportedFormat path) := by
  rw [load, Format.ofExtension?_eq_none_iff.mpr h]

end KnnOracle.Dataset
