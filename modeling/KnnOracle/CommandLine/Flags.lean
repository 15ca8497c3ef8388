/-
Flags of a command line.

A flag is a word with two dashes, or one dash and a letter. A switch
stands for itself; an option takes a value, either after an equals sign
or as the next word, unless that word looks like a flag. After two lone
dashes no word is a flag any more.

A value that stands in a word of its own is looked at only when the next
flag is met or the words end. Until then an unknown word or a switch with
a value comes first, whatever is wrong with the option before it.
-/
import KnnOracle.Decimal.Reading
import KnnOracle.Powers

namespace KnnOracle.CommandLine

-- ============================================================ the flags

/-- What an option takes. -/
inductive ValueKind where
  | text
  | path
  /-- A natural number of 64 bits. -/
  | natural
  | float
deriving DecidableEq, Repr

/-- What a flag does. -/
inductive FlagKind where
  | switch
  | option (value : ValueKind)
  | help
deriving DecidableEq, Repr

/-- A flag. -/
structure Flag where
  name : String
  letter : Option Char
  kind : FlagKind

/-- What a command line may hold: flags, and at most so many other words,
which are paths. -/
structure Grammar where
  flags : List Flag
  words : Nat

/-- What is wrong with a command line. -/
inductive UsageError where
  | unknownArgument
  /-- An option without its value. -/
  | invalidValue
  /-- A value that cannot be read. -/
  | valueValidation
  /-- A flag that is given twice. -/
  | argumentConflict
  /-- A switch with a value. -/
  | tooManyValues
  /-- A word that has to be there. -/
  | missingArgument
  | unknownCommand
  /-- Nothing is wrong, but help is asked for. -/
  | helpRequested
deriving DecidableEq, Repr

namespace Grammar

/-- The flag with a name. -/
def named? (g : Grammar) (name : List Char) : Option Flag :=
  g.flags.find? fun f => f.name.toList == name

/-- The flag with a letter. -/
def lettered? (g : Grammar) (letter : Char) : Option Flag :=
  g.flags.find? fun f => f.letter == some letter

end Grammar

-- ============================================================ the values

/-- A natural number of 64 bits. -/
def natural64? (value : String) : Option Nat :=
  match Decimal.natural? value.toList with
  | some n => if n < 2 ^ 64 then some n else none
  | none => none

/-- What is wrong with a value. -/
def ValueKind.error? (kind : ValueKind) (value : String) : Option UsageError :=
  match kind with
  | .text => none
  | .path => if value.isEmpty then some .invalidValue else none
  | .natural =>
      if (natural64? value).isSome then none else some .valueValidation
  | .float =>
      if (Decimal.float? value.toList).isSome then none
      else some .valueValidation

-- ========================================================== the scanner

/-- What was read of a command line: values by name, a switch with an
empty one; the other words; and the option that still waits for its value
or to be looked at. -/
structure Scan where
  values : List (String × String)
  words : List String
  pending : Option (String × ValueKind × Option String)

namespace Scan

/-- Nothing was read. -/
def start : Scan := ⟨[], [], none⟩

/-- Whether a flag was read. -/
def has (s : Scan) (name : String) : Bool := s.values.any fun v => v.1 == name

/-- The value of an option. -/
def value? (s : Scan) (name : String) : Option String :=
  (s.values.find? fun v => v.1 == name).map Prod.snd

/-- Takes in an option with its value. -/
def accept (s : Scan) (name : String) (kind : ValueKind) (value : String) :
    Except UsageError Scan :=
  if s.has name then .error .argumentConflict
  else
    match kind.error? value with
    | some e => .error e
    | none => .ok { s with values := s.values ++ [(name, value)] }

/-- Looks at the option that waits. -/
def resolve (s : Scan) : Except UsageError Scan :=
  match s.pending with
  | none => .ok s
  | some (_, _, none) => .error .invalidValue
  | some (name, kind, some value) =>
      { s with pending := none }.accept name kind value

/-- Takes in a flag that no value is attached to. -/
def flag (s : Scan) (f : Flag) : Except UsageError Scan :=
  match s.resolve with
  | .error e => .error e
  | .ok s =>
      match f.kind with
      | .help => .error .helpRequested
      | .switch =>
          if s.has f.name then .error .argumentConflict
          else .ok { s with values := s.values ++ [(f.name, "")] }
      | .option kind => .ok { s with pending := some (f.name, kind, none) }

/-- Takes in a flag with a value attached. -/
def flagWith (s : Scan) (f : Flag) (value : String) : Except UsageError Scan :=
  match f.kind with
  | .option kind =>
      match s.resolve with
      | .error e => .error e
      | .ok s => s.accept f.name kind value
  | _ => .error .tooManyValues

/-- Takes in the letters of a word with one dash. -/
def letters (g : Grammar) (s : Scan) : List Char → Except UsageError Scan
  | [] => .ok s
  | c :: rest =>
      match g.lettered? c with
      | none => .error .unknownArgument
      | some f =>
          match f.kind with
          | .option _ =>
              match rest with
              | [] => s.flag f
              | '=' :: value => s.flagWith f (String.ofList value)
              | value => s.flagWith f (String.ofList value)
          | _ =>
              match s.flag f with
              | .error e => .error e
              | .ok s => letters g s rest

/-- Takes in a word with two dashes, which are dropped. -/
def long (g : Grammar) (s : Scan) (cs : List Char) : Except UsageError Scan :=
  let name := cs.takeWhile (· != '=')
  match g.named? name with
  | none => .error .unknownArgument
  | some f =>
      match cs.dropWhile (· != '=') with
      | [] => s.flag f
      | _ :: value => s.flagWith f (String.ofList value)

/-- Takes in a word that is no flag. -/
def word (g : Grammar) (s : Scan) (w : String) : Except UsageError Scan :=
  if s.words.length < g.words then
    match s.resolve with
    | .error e => .error e
    | .ok s =>
        if w.isEmpty then .error .invalidValue
        else .ok { s with words := s.words ++ [w] }
  else .error .unknownArgument

/-- Whether an option waits for the next word. -/
def awaitsValue (s : Scan) : Bool :=
  match s.pending with
  | some (_, _, none) => true
  | _ => false

/-- Takes in a word that is the value of the option that waits for it, or
else no flag. -/
def valueOrWord (g : Grammar) (s : Scan) (w : String) :
    Except UsageError Scan :=
  match s.pending with
  | some (name, kind, none) =>
      .ok { s with pending := some (name, kind, some w) }
  | _ => s.word g w

/-- Takes in the words after two lone dashes. -/
def trailing (g : Grammar) (s : Scan) : List String → Except UsageError Scan
  | [] => s.resolve
  | w :: rest =>
      match s.word g w with
      | .error e => .error e
      | .ok s => trailing g s rest

/-- Takes in one word. -/
def step (g : Grammar) (s : Scan) (w : String) : Except UsageError Scan :=
  match w.toList with
  | '-' :: '-' :: cs => s.long g cs
  | '-' :: c :: cs => s.letters g (c :: cs)
  | _ => s.valueOrWord g w

/-- Takes in all words. -/
def all (g : Grammar) (s : Scan) : List String → Except UsageError Scan
  | [] => s.resolve
  | w :: rest =>
      if w = "--" then s.trailing g rest
      else
        match s.step g w with
        | .error e => .error e
        | .ok s => all g s rest

end Scan

/-- Reads words. -/
def Grammar.scan (g : Grammar) (words : List String) :
    Except UsageError Scan :=
  Scan.start.all g words

end KnnOracle.CommandLine
