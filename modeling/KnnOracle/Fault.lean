/-
Why the oracle has no answer.

Every refusal of the oracle is one of six causes. `Fault.atRecord` adds
the id of the record that was being looked at; `Fault.root` takes such
contexts away again. The wording of a cause is `Fault.message`.
-/
import KnnOracle.Decimal.Written
import KnnOracle.Record

namespace KnnOracle

/-- The place of a vector in a two-vector operation. -/
inductive Side where
  | left
  | right
deriving DecidableEq, Repr

/-- The name of a side. -/
def Side.text : Side → String
  | .left => "left"
  | .right => "right"

/-- The limits that a comparison is held to. -/
inductive Threshold where
  | tolerance
  | minRecall
deriving DecidableEq, Repr

/-- The name of a threshold. -/
def Threshold.text : Threshold → String
  | .tolerance => "tolerance"
  | .minRecall => "min_recall"

/-- A cause of refusal. -/
inductive Fault where
  /-- Two vectors of different lengths. -/
  | dimensionMismatch (expected found : Nat)
  /-- A vector of norm zero, which has no direction. -/
  | degenerate (side : Side)
  /-- A cause that arose while one record was looked at. -/
  | atRecord (id : RecordId) (cause : Fault)
  /-- Two records of a corpus with one id. -/
  | duplicateId (id : RecordId)
  /-- A component that is a NaN or an infinity. -/
  | nonFinite (id : RecordId) (index : Nat)
  /-- A limit outside its range. -/
  | invalidThreshold (threshold : Threshold) (value : Float)

namespace Fault

/-- The wording of a cause; contexts stand in front, outermost first. -/
def message : Fault → String
  | .dimensionMismatch expected found =>
      "Dimension mismatch: expected " ++ toString expected ++ ", found "
        ++ toString found
  | .degenerate side =>
      "Degenerate vector: " ++ side.text ++ " operand has zero norm"
  | .atRecord id cause => "Record " ++ id.text ++ ": " ++ cause.message
  | .duplicateId id => "Duplicate record id " ++ id.text ++ " in corpus"
  | .nonFinite id index =>
      "Non-finite value at index " ++ toString index ++ " of vector "
        ++ id.text
  | .invalidThreshold threshold value =>
      "Invalid " ++ threshold.text ++ ": " ++ Decimal.plain value

/-- The cause without any context. -/
def root : Fault → Fault
  | .atRecord _ cause => cause.root
  | cause => cause

/-- The id that the refusal is about, if it names one. -/
def recordId? : Fault → Option RecordId
  | .atRecord id _ => some id
  | .duplicateId id => some id
  | .nonFinite id _ => some id
  | _ => none

end Fault

/-- Rejects a record with a NaN or an infinity among its components. -/
def Record.ensureFinite (r : Record) : Except Fault Unit :=
  match r.firstNonFinite? with
  | some index => .error (.nonFinite r.id index)
  | none => .ok ()

end KnnOracle
