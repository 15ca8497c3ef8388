/-
JSON forms of the oracle's own values.

Ids are bare numbers. Records and neighbors are structures, which are
written as objects and may also be read as lists of their fields.
-/
import KnnOracle.Comparison
import KnnOracle.Json.Decode

namespace KnnOracle

open Json

-- ================================================================ ids

/-- An id as JSON. -/
def RecordId.toJson (id : RecordId) : Value := .nat id.value.toNat

/-- Reads an id. -/
def RecordId.ofJson? (t : Tree) : Option RecordId :=
  t.natural64?.map fun n => ⟨UInt64.ofNat n⟩

-- ============================================================ structures

/-- Numbers as a JSON list. -/
def floatsToJson (values : List Float) : Value := .list (values.map .real)

/-- Reads a list of numbers. -/
def floatsOfJson? (t : Tree) : Option (List Float) := t.list? Tree.float?

/-- A record as JSON. -/
def Record.toJson (r : Record) : Value :=
  .object [("id", r.id.toJson), ("values", floatsToJson r.values)]

/-- Reads a record. -/
def Record.ofJson? (t : Tree) : Option Record :=
  match t.fields? ["id", "values"] 0 with
  | some [some id, some values] => do
      let id ← RecordId.ofJson? id
      let values ← floatsOfJson? values
      some ⟨id, values⟩
  | _ => none

/-- A neighbor as JSON. -/
def Neighbor.toJson (n : Neighbor) : Value :=
  .object [("id", n.id.toJson), ("score", .real n.score.toFloat)]

/-- Reads a neighbor. -/
def Neighbor.ofJson? (t : Tree) : Option Neighbor :=
  match t.fields? ["id", "score"] 0 with
  | some [some id, some score] => do
      let id ← RecordId.ofJson? id
      let score ← score.float?
      some ⟨id, Score.ofFloat score⟩
  | _ => none

-- =============================================================== modes

/-- A mode as JSON: its name. -/
def SearchMode.toJson (m : SearchMode) : Value := .text m.text

/-- The mode with a name. -/
def SearchMode.ofText? (name : String) : Option SearchMode :=
  if name = "exact" then some .exact
  else if name = "approximate" then some .approximate
  else none

/-- Reads a mode: its name, or an object whose only member has that name
and no value. -/
def SearchMode.ofJson? : Tree → Option SearchMode
  | .object [(name, .null)] => (Tree.string name).text?.bind SearchMode.ofText?
  | t => t.text?.bind SearchMode.ofText?

end KnnOracle
