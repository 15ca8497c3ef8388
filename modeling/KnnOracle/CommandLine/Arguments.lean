/-
The command line of the program.

`load`, `validate` and `run` share their flags, which are the settings of
a run; the host and the token may come from the environment instead.
`generate` takes a path and the shape of a corpus. Metrics can be asked
for before the command and after it.
-/
import KnnOracle.CommandLine.Flags
import KnnOracle.Session.Command

namespace KnnOracle.CommandLine

-- ============================================================= settings

/-- A flag without a letter. -/
def plainFlag (name : String) (kind : FlagKind) : Flag := ⟨name, none, kind⟩

/-- The flag that asks for help. -/
def helpFlag : Flag := ⟨"help", some 'h', .help⟩

/-- The flags of a run's settings. -/
def settingsFlags : List Flag :=
  [plainFlag "host" (.option .text),
    plainFlag "token" (.option .text),
    plainFlag "verify-tls" .switch,
    plainFlag "timeout-secs" (.option .natural),
    plainFlag "collection" (.option .text),
    plainFlag "dimension" (.option .natural),
    plainFlag "count" (.option .natural),
    plainFlag "seed" (.option .natural),
    plainFlag "dataset" (.option .path),
    plainFlag "no-index" .switch,
    plainFlag "batch-size" (.option .natural),
    plainFlag "workers" (.option .natural),
    plainFlag "readback" (.option .natural),
    ⟨"k", some 'k', .option .natural⟩,
    plainFlag "tolerance" (.option .float),
    plainFlag "min-recall" (.option .float),
    plainFlag "exact" .switch,
    plainFlag "queries" (.option .natural),
    plainFlag "perturbation" (.option .float),
    plainFlag "concurrency" (.option .natural),
    plainFlag "report" (.option .path),
    helpFlag]

/-- The grammar of a run's settings. -/
def settingsGrammar : Grammar := ⟨settingsFlags, 0⟩

/-- The value of a numeric option, or its default. -/
def Scan.natural (s : Scan) (name : String) (default : Nat) : Nat :=
  ((s.value? name).bind natural64?).getD default

/-- The value of a fractional option, or its default. -/
def Scan.float (s : Scan) (name : String) (default : Float) : Float :=
  ((s.value? name).bind fun v => Decimal.float? v.toList).getD default

/-- What the environment says about the service. -/
structure Environment where
  host : Option String := none
  token : Option String := none

/-- The settings that a command line gives. -/
def settingsOf (env : Environment) (s : Scan) : Settings :=
  let d : Settings := {}
  { host := ((s.value? "host").or env.host).getD d.host
    token := (s.value? "token").or env.token
    insecure := !s.has "verify-tls"
    timeoutSeconds := s.natural "timeout-secs" d.timeoutSeconds
    collection := (s.value? "collection").getD d.collection
    dimension := s.natural "dimension" d.dimension
    count := s.natural "count" d.count
    seed := UInt64.ofNat (s.natural "seed" d.seed.toNat)
    dataset := s.value? "dataset"
    createIndex := !s.has "no-index"
    batchSize := s.natural "batch-size" d.batchSize
    workers := s.natural "workers" d.workers
    readback := s.natural "readback" d.readback
    k := s.natural "k" d.k
    tolerance := s.float "tolerance" d.tolerance
    minRecall := s.float "min-recall" d.minRecall
    mode := if s.has "exact" then .exact else .approximate
    queries := s.natural "queries" d.queries
    perturbation := s.float "perturbation" d.perturbation
    concurrency := s.natural "concurrency" d.concurrency
    report := s.value? "report" }

/-- Reads the settings of a run. -/
def settings? (env : Environment) (words : List String) :
    Except UsageError Settings :=
  match settingsGrammar.scan words with
  | .ok s => .ok (settingsOf env s)
  | .error e => .error e

-- ============================================================ generation

/-- The grammar of `generate`. -/
def generateGrammar : Grammar :=
  ⟨[plainFlag "count" (.option .natural),
    plainFlag "dimension" (.option .natural),
    plainFlag "seed" (.option .natural), helpFlag], 1⟩

/-- The corpus that a command line asks for. -/
def generateOf (s : Scan) : Except UsageError GenerateRequest :=
  match s.words with
  | [] => .error .missingArgument
  | path :: _ =>
      let d : GenerateRequest := { path }
      .ok
        { path
          count := s.natural "count" d.count
          dimension := s.natural "dimension" d.dimension
          seed := UInt64.ofNat (s.natural "seed" d.seed.toNat) }

-- ========================================================== the program

/-- What a command line asks for. -/
structure Invocation where
  command : Command
  /-- Whether metrics are printed in the end. -/
  metrics : Bool

/-- The switch for metrics. -/
def metricsFlag : Flag := plainFlag "metrics" .switch

/-- A grammar with the switch for metrics. -/
def Grammar.withMetrics (g : Grammar) : Grammar :=
  { g with flags := metricsFlag :: g.flags }

/-- The grammar of what stands before the command. -/
def topGrammar : Grammar := ⟨[metricsFlag, helpFlag], 0⟩

/-- Reads what follows the name of a command. -/
def commandOf (env : Environment) (name : String) (words : List String) :
    Except UsageError Invocation :=
  let withSettings := fun (make : Settings → Command) =>
    match settingsGrammar.withMetrics.scan words with
    | .error e => .error e
    | .ok s => .ok ⟨make (settingsOf env s), s.has "metrics"⟩
  if name = "generate" then
    match generateGrammar.withMetrics.scan words with
    | .error e => .error e
    | .ok s =>
        match generateOf s with
        | .error e => .error e
        | .ok r => .ok ⟨.generate r, s.has "metrics"⟩
  else if name = "load" then withSettings .load
  else if name = "validate" then withSettings .validate
  else if name = "run" then withSettings .run
  else .error .unknownCommand

/-- The names of the commands. -/
def commandNames : List String :=
  ["generate", "load", "validate", "run", "help"]

/-- Reads what follows the word `help`: the name of a command, or
nothing. -/
def helpOf : List String → UsageError
  | [] => .helpRequested
  | [name] =>
      if commandNames.contains name then .helpRequested else .unknownCommand
  | _ => .unknownCommand

/-- Reads a command line up to the command and from there on. -/
def invocationFrom (env : Environment) (s : Scan) :
    List String → Except UsageError Invocation
  | [] => .error .missingArgument
  | w :: rest =>
      if w = "help" then .error (helpOf rest)
      else if commandNames.contains w then
        match commandOf env w rest with
        | .error e => .error e
        | .ok i => .ok { i with metrics := i.metrics || s.has "metrics" }
      else if w = "--" then .error .unknownArgument
      else if !w.startsWith "-" then .error .unknownCommand
      else
        match s.step topGrammar w with
        | .error e => .error e
        | .ok s => invocationFrom env s rest

/-- Reads a whole command line. -/
def invocation? (env : Environment) (words : List String) :
    Except UsageError Invocation :=
  invocationFrom env .start words

/-- The code that the program ends with where a command line cannot be
carried out. -/
def UsageError.exitCode : UsageError → Nat
  | .helpRequested => 0
  | _ => 2

/-- What is said of a command line that cannot be carried out. -/
def UsageError.message : UsageError → String
  | .unknownArgument => "error: unexpected argument found"
  | .invalidValue => "error: a value is required"
  | .valueValidation => "error: invalid value"
  | .argumentConflict => "error: an argument cannot be used multiple times"
  | .tooManyValues => "error: unexpected value found"
  | .missingArgument => "error: a required argument or command is missing"
  | .unknownCommand => "error: unrecognized command"
  | .helpRequested =>
      "Usage: vecoracle [--metrics] <generate|load|validate|run> [options]"

end KnnOracle.CommandLine
