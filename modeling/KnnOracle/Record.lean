/-
Vectors and their ids.

A record is a dense vector with the id its owner gave it. Members of a
corpus and queries have the same shape.
-/
namespace KnnOracle

/-- The id of a vector: a 64-bit number chosen by the caller. -/
structure RecordId where
  value : UInt64
deriving DecidableEq, Hashable, Inhabited, Repr

/-- The decimal form of an id. -/
def RecordId.text (id : RecordId) : String := toString id.value.toNat

/-- A vector with its id. -/
structure Record where
  id : RecordId
  values : List Float

namespace Record

/-- The number of components. -/
def dimension (r : Record) : Nat := r.values.length

/-- The first component, if any, that is a NaN or an infinity. -/
def firstNonFinite? (r : Record) : Option Nat :=
  r.values.findIdx? fun v => !v.isFinite

end Record

end KnnOracle
