/-
Contents of files.

A file holds bytes, or a table of columns, which is known by what is in
it and not by how it is stored. Whoever needs a file asks a `Reader` for
it; where the reader looks is its own affair.
-/
import KnnOracle.Storage.Table

namespace KnnOracle.Storage

/-- Why a file cannot be read or written. -/
inductive FileFault where
  | notFound
  | notDirectory
  | isDirectory
  | nameTooLong
  | nameWithNul
  /-- The bytes are no text. -/
  | notText
  /-- What else a system may say. -/
  | other (reason : String)
deriving DecidableEq, Repr

/-- The wording of a fault. -/
def FileFault.message : FileFault → String
  | .notFound => "No such file or directory (os error 2)"
  | .notDirectory => "Not a directory (os error 20)"
  | .isDirectory => "Is a directory (os error 21)"
  | .nameTooLong => "File name too long (os error 36)"
  | .nameWithNul => "file name contained an unexpected NUL byte"
  | .notText => "stream did not contain valid UTF-8"
  | .other reason => reason

/-- What a file holds: bytes, or a table of columns. -/
inductive Content where
  | bytes (data : List UInt8)
  | table (table : Table)

/-- The bytes of a content. Of a table only the mark is known that every
columnar file starts with. -/
def Content.data : Content → List UInt8
  | .bytes data => data
  | .table _ => [0x50, 0x41, 0x52, 0x31]

/-- Tells what the file under a path holds. -/
abbrev Reader : Type := String → Except FileFault Content

end KnnOracle.Storage
