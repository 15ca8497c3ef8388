/-
Commands.

A command ends with something to print, perhaps a file to write, and a
result. What is printed before the file is written stays printed where
the writing fails; what comes after is left out then, and the run fails.
`Ending.settle` puts that together once it is known how the writing went.
-/
import KnnOracle.Corpus.Fingerprint
import KnnOracle.Session.Generate
import KnnOracle.Session.Telemetry
import KnnOracle.Session.Validate
import KnnOracle.Validation.Tables

namespace KnnOracle

-- ============================================================= notices

/-- Something to print. -/
inductive Notice where
  | wrote (generated : Generated)
  /-- The end of a load that is all there is to do. -/
  | loadedInto (collection : String) (upload : Upload.Summary)
  /-- The end of a load that is followed by a validation. -/
  | loaded (upload : Upload.Summary)
  | validated (outcomes : List Outcome)

/-- The text of a notice. `elapsed` is how long the upload took. -/
def Notice.text (elapsed : String) : Notice → String
  | .wrote g =>
      "Wrote " ++ toString g.corpus.size ++ " vectors (dim "
        ++ toString g.request.dimension
        ++ ", seed " ++ toString g.request.seed.toNat ++ ") to "
        ++ Text.quotedPath g.request.path ++ "\nFingerprint: "
          ++ g.corpus.fingerprint ++ "\n"
  | .loadedInto collection u =>
      "Loaded " ++ toString u.vectors ++ " vectors into " ++ collection ++ " ("
        ++ toString u.batches ++ " batches, " ++ elapsed ++ "), transaction "
        ++ u.transaction.text ++ "\n"
  | .loaded u =>
      "Loaded " ++ toString u.vectors ++ " vectors in " ++ toString u.batches
        ++ " batches ("
        ++ elapsed ++ "), transaction " ++ u.transaction.text ++ "\n"
  | .validated outcomes => printedOutcomes outcomes

-- ============================================================== output

/-- A file to write. -/
inductive Output where
  | report (path : String) (document : RunReport)
  | dataset (path : String) (content : Storage.Content)

namespace Output

/-- Where the file goes. -/
def path : Output → String
  | .report path _ => path
  | .dataset path _ => path

/-- What the file holds, if it is written at a moment. -/
def content (moment : Nat) : Output → Storage.Content
  | .report _ document => .bytes (document.text moment).toUTF8.toList
  | .dataset _ content => content

/-- The failure to write the file. -/
def failure (cause : Storage.FileFault) : Output → Failure
  | .report path _ => .reportNotWritten path cause
  | .dataset path _ => .outputNotWritten path (.file cause)

end Output

-- ============================================================= endings

/-- How a command ends. -/
structure Ending (α : Type) where
  notices : List Notice
  output? : Option Output
  /-- What is printed once the file is written. -/
  closing : List Notice
  /-- The result, if the file is written. -/
  result : Except Failure α

namespace Ending

variable {α : Type}

/-- The end of a command that fails before it says anything. -/
def failed (e : Failure) : Ending α := ⟨[], none, [], .error e⟩

/-- Says something first. -/
def after (notice : Notice) (e : Ending α) : Ending α :=
  { e with notices := notice :: e.notices }

/-- What is printed in the end and what results, given how the file was
written, if there is one. -/
def settle (e : Ending α) (written : Except Storage.FileFault Unit) :
    List Notice × Except Failure α :=
  match e.output?, written with
  | some output, .error cause => (e.notices, .error (output.failure cause))
  | _, _ => (e.notices ++ e.closing, e.result)

/-- Writes the file to a file system and settles. -/
def settleIn {σ : Type} [Storage.FileSystem σ] (e : Ending α) (files : σ)
    (moment : Nat) : (List Notice × Except Failure α) × σ :=
  match e.output? with
  | none => (e.settle (.ok ()), files)
  | some output =>
      let content := output.content moment
      match Storage.FileSystem.write files output.path content with
      | .ok files => (e.settle (.ok ()), files)
      | .error cause => (e.settle (.error cause), files)

end Ending

-- ============================================================ commands

/-- Prints a validation and writes its report, if there is to be one. -/
def Settings.conclude (s : Settings) (v : Validated) : Ending Validated :=
  ⟨[.validated v.outcomes], s.report.map fun path => .report path (v.report s),
    [], .ok v⟩

/-- Validates the service and reports. -/
def validateAndReport (s : Settings) (read : Storage.Reader) :
    Conversation (Ending Validated) :=
  (validate s read).bind fun
    | .error e => .done (.failed e)
    | .ok v => .done (s.conclude v)

/-- Loads the service, then validates it with the same corpus and
reports. -/
def loadAndValidate (s : Settings) (read : Storage.Reader) :
    Conversation (Ending Validated) :=
  (load s read).bind fun
    | .error e => .done (.failed e)
    | .ok loaded =>
        (validateCorpus s loaded.corpus).bind fun
          | .error e => .done ((Ending.failed e).after (.loaded loaded.upload))
          | .ok v => .done ((s.conclude v).after (.loaded loaded.upload))

/-- What can be asked for on the command line. -/
inductive Command where
  | generate (request : GenerateRequest)
  | load (settings : Settings)
  | validate (settings : Settings)
  | run (settings : Settings)

/-- A validation with failed queries is a failed run. -/
def requirePassed (e : Ending Validated) : Ending Unit :=
  { notices := e.notices
    output? := e.output?
    closing := e.closing
    result :=
      match e.result with
      | .error e => .error e
      | .ok v =>
          if v.summary.allPassed then .ok ()
          else .error (.queriesFailed v.summary.failed v.summary.queries) }

/-- Carries a command out. -/
def Command.conversation (read : Storage.Reader) :
    Command → Conversation (Ending Unit)
  | .generate r =>
      .done <|
        match r.prepare with
        | .error e => .failed e
        | .ok g => ⟨[], some (.dataset r.path g.content), [.wrote g], .ok ()⟩
  | .load s =>
      (KnnOracle.load s read).bind fun
        | .error e => .done (.failed e)
        | .ok loaded =>
            .done ⟨[.loadedInto s.collection loaded.upload], none, [], .ok ()⟩
  | .validate s =>
      (validateAndReport s read).bind fun e => .done (requirePassed e)
  | .run s => (loadAndValidate s read).bind fun e => .done (requirePassed e)

end KnnOracle
