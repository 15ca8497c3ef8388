/-
Why a run fails.

A failure is explained by a chain: what could not be done, then the cause
of that, then the cause of the cause. `Failure.links` is the chain, with
the causes that come from the parts of the program kept as they are.
-/
import KnnOracle.Dataset.Fault
import KnnOracle.Exchange.Call
import KnnOracle.Pieces
import KnnOracle.Text.Quoted

namespace KnnOracle

/-- Why a run fails. -/
inductive Failure where
  | datasetNotLoaded (path : String) (cause : DatasetFault)
  | recordsNotMade (cause : DatasetFault)
  | corpusRejected (cause : Fault)
  | collectionNotCreated (cause : CallError)
  | indexNotCreated (cause : CallError)
  | uploadFailed (cause : CallError)
  | notReadBack (id : RecordId) (cause : CallError)
  | readBackDimension (id : RecordId) (stored expected : Nat)
  | readBackDrift (id : RecordId) (drift tolerance : Float)
  /-- The largest id of the corpus is the largest there is. -/
  | noRoomForQueries (largest : RecordId)
  | queriesNotMade (cause : DatasetFault)
  | reportNotWritten (path : String) (cause : Storage.FileFault)
  | queriesFailed (failed queries : Nat)
  | corpusNotMade (cause : Fault)
  | unknownOutputFormat (extension : String)
  | outputNotWritten (path : String) (cause : DatasetFault)

/-- One link of an explanation. -/
inductive Link where
  | text (text : String)
  | dataset (cause : DatasetFault)
  | call (cause : CallError)
  /-- A cause that a reader of JSON found. -/
  | json
  /-- A cause that a reader of tables found. -/
  | table

namespace Link

/-- The wording of a link. -/
def message : Link → String
  | .text words => words
  | .dataset cause => cause.message
  | .call cause => cause.message
  | .json => "not a record"
  | .table => "not a table"

end Link

/-- The chain of a fault of the oracle. -/
def Fault.links : Fault → List Link
  | .atRecord id cause =>
      .text (Fault.atRecord id cause).message :: cause.links
  | cause => [.text cause.message]

/-- The chain of a fault of a dataset. -/
def DatasetFault.links (cause : DatasetFault) : List Link :=
  .dataset cause :: match cause with
    | .file inner => [.text inner.message]
    | .malformedLine _ => [.json]
    | .notTable => [.table]
    | _ => []

/-- The chain of an error of a call. -/
def CallError.links : CallError → List Link
  | .batchFailed batch cause => .call (.batchFailed batch cause) :: cause.links
  | cause => [.call cause]

namespace Failure

/-- The chain that explains a failure, outermost link first. -/
def links : Failure → List Link
  | .datasetNotLoaded path cause =>
      .text ("Failed to load dataset " ++ Text.quotedPath path) :: cause.links
  | .recordsNotMade cause => cause.links
  | .corpusRejected cause => .text "Corpus rejected" :: cause.links
  | .collectionNotCreated cause =>
      .text "Failed to create collection" :: cause.links
  | .indexNotCreated cause => .text "Failed to create index" :: cause.links
  | .uploadFailed cause => .text "Upload failed" :: cause.links
  | .notReadBack id cause =>
      .text ("Failed to read back vector " ++ id.text) :: cause.links
  | .readBackDimension id stored expected =>
      [.text
        ("Vector " ++ id.text ++ " read back with dimension "
          ++ toString stored
        ++ ", expected " ++ toString expected)]
  | .readBackDrift id drift tolerance =>
      [.text ("Vector " ++ id.text ++ " read back with drift "
        ++ Decimal.scientific 3 false drift ++ " over tolerance "
        ++ Decimal.scientific 3 false tolerance)]
  | .noRoomForQueries largest =>
      [.text ("Corpus id " ++ largest.text ++ " leaves no room for query ids")]
  | .queriesNotMade cause => cause.links
  | .reportNotWritten path cause =>
      [.text ("Failed to write report to " ++ Text.quotedPath path),
        .text cause.message]
  | .queriesFailed failed queries =>
      [.text
        (toString failed ++ " of " ++ toString queries
          ++ " queries failed validation")]
  | .corpusNotMade cause => cause.links
  | .unknownOutputFormat extension =>
      [.text ("Unsupported output format " ++ Text.quoted extension
        ++ " (use .fvecs, .jsonl or .parquet)")]
  | .outputNotWritten path cause =>
      .text ("Failed to write " ++ Text.quotedPath path) :: cause.links

-- ============================================================ printing

/-- A text with every line but the first moved in. -/
def moveIn (blanks : Nat) (text : String) : List Char :=
  Json.joinWith ('\n' :: List.replicate blanks ' ')
    (pieces (· == '\n') text.toList)

/-- The causes, numbered if there are several. -/
def causeLines : List String → List (List Char)
  | [] => []
  | [only] => [List.replicate 4 ' ' ++ moveIn 4 only]
  | causes =>
      causes.zipIdx.map fun (cause, i) =>
        let number := Decimal.digitsOf i
        List.replicate (5 - number.length) ' ' ++ number ++ [':', ' ']
          ++ moveIn 7 cause

/-- What is printed about a failure. -/
def explanation (f : Failure) : String :=
  match f.links.map Link.message with
  | [] => "Error: "
  | head :: causes =>
      String.ofList <|
        "Error: ".toList ++ head.toList
          ++ if causes.isEmpty then []
            else "\n\nCaused by:\n".toList
              ++ Json.joinWith ['\n'] (causeLines causes)

/-- The code that the program ends with. A draw that cannot be made, or a
list that there is no room for, stops it at once, and nothing is
explained. -/
def exitCode : Failure → Nat
  | .recordsNotMade cause => if cause.isAbrupt then 101 else 1
  | .queriesNotMade cause => if cause.isAbrupt then 101 else 1
  | _ => 1

/-- Whether a failure stops the program at once. -/
def isAbrupt (f : Failure) : Bool := f.exitCode == 101

end Failure

end KnnOracle
