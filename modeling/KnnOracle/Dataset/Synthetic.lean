/-
Synthetic records.

Components are uniform in [-1, 1). A corpus gets the ids from zero on and
is shuffled afterwards; a query is a member of the corpus with noise on
it, kept within [-1, 1], and an id of its own. Everything is drawn from
one stream, so equal seeds give equal records. Each function answers with
the stream as it is after its last draw, also where it fails.
-/
import KnnOracle.Dataset.Fault
import KnnOracle.Powers
import KnnOracle.Random.Draw

namespace KnnOracle.Synthetic

open KnnOracle.Random

-- ============================================================= drawing

/-- Draws `count` numbers; `acc` holds those drawn so far, last first. -/
def drawFloats (draw : Stream → Float × Stream) (acc : List Float) :
    Nat → Stream → List Float × Stream
  | 0, s => (acc.reverse, s)
  | count + 1, s =>
      let (v, s) := draw s
      drawFloats draw (v :: acc) count s

/-- A record of uniform components. -/
def randomRecord (id : RecordId) (dimension : Nat) (s : Stream) :
    Record × Stream :=
  let (values, s) := drawFloats signed [] dimension s
  (⟨id, values⟩, s)

/-- Records with consecutive ids from `next` on. -/
def drawRecords (dimension : Nat) (acc : List Record) (next : Nat) :
    Nat → Stream → List Record × Stream
  | 0, s => (acc.reverse, s)
  | count + 1, s =>
      let (r, s) := randomRecord ⟨UInt64.ofNat next⟩ dimension s
      drawRecords dimension (r :: acc) (next + 1) count s

/-- `count` records with the ids from zero on, shuffled. -/
def generate (count dimension : Nat) (s : Stream) : List Record × Stream :=
  let (records, s) := drawRecords dimension [] 0 count s
  shuffle records s

/-- The records that a seed stands for. -/
def corpusOf (seed : UInt64) (count dimension : Nat) : List Record :=
  (generate count dimension (Stream.ofSeed seed)).1

-- ================================================================= room

/-- Whether there is room for a list of so many things of so many bytes.
No list takes 2^63 bytes or more. -/
def HasRoom (count size : Nat) : Prop := count * size < 2 ^ 63

instance (count size : Nat) : Decidable (HasRoom count size) :=
  inferInstanceAs (Decidable (_ < _))

/-- The bytes that a record takes in a list: its id, and where its
components are. They have a list of their own. -/
def recordSize : Nat := 32

/-- The bytes that a component takes. -/
def componentSize : Nat := 8

/-- Whether there is room for so many records of a dimension. -/
def Fits (count dimension : Nat) : Prop :=
  HasRoom count recordSize ∧ (0 < count → HasRoom dimension componentSize)

instance (count dimension : Nat) : Decidable (Fits count dimension) :=
  inferInstanceAs (Decidable (_ ∧ _))

/-- The records that a seed stands for, if there is room for them. -/
def corpus? (seed : UInt64) (count dimension : Nat) :
    Except DatasetFault (List Record) :=
  if Fits count dimension then .ok (corpusOf seed count dimension)
  else .error .noRoom

-- ========================================================= perturbation

/-- The nearest number in [-1, 1]; a NaN stays one. -/
def confine (x : Float) : Float :=
  if x < -1.0 then -1.0 else if x > 1.0 then 1.0 else x

/-- Adds noise to components in order. -/
def addNoise (noise : Noise) (acc : List Float) :
    List Float → Stream → List Float × Stream
  | [], s => (acc.reverse, s)
  | v :: rest, s =>
      let (e, s) := noise.draw s
      addNoise noise (confine (v + e) :: acc) rest s

/-- Adds noise of a degree to every component. A degree of zero leaves the
record as it is. -/
def perturb (r : Record) (degree : Float) (s : Stream) :
    Except DatasetFault Record × Stream :=
  if !degree.isFinite || degree < 0.0 then
    (.error (.invalidPerturbation degree), s)
  else if degree == 0.0 || r.values.isEmpty then (.ok r, s)
  else
    match Noise.ofDegree? degree with
    | none => (.error (.noiseTooWide degree), s)
    | some noise =>
        let (values, s) := addNoise noise [] r.values s
        (.ok ⟨r.id, values⟩, s)

-- ============================================================== queries

/-- The query number `index`: a perturbed member of the corpus with the
id `firstId + index`. Nothing if the corpus has no members. -/
def query? (corpus : Array Record) (count : Nat) (degree : Float)
    (firstId : UInt64) (index : Nat) (s : Stream) :
    Option (Except DatasetFault Record) × Stream :=
  match choose? corpus s with
  | (none, s) => (none, s)
  | (some base, s) =>
      if firstId.toNat + index < 2 ^ 64 then
        match perturb base degree s with
        | (.ok r, s) =>
            (some (.ok ⟨⟨firstId + UInt64.ofNat index⟩, r.values⟩), s)
        | (.error e, s) => (some (.error e), s)
      else (some (.error (.idOverflow firstId count)), s)

/-- The queries from number `index` on, `remaining` of them, or as many as
an empty corpus has. -/
def queriesFrom (corpus : Array Record) (count : Nat) (degree : Float)
    (firstId : UInt64) (acc : List Record) (index : Nat) :
    Nat → Stream → Except DatasetFault (List Record) × Stream
  | 0, s => (.ok acc.reverse, s)
  | remaining + 1, s =>
      match query? corpus count degree firstId index s with
      | (none, s) => (.ok acc.reverse, s)
      | (some (.error e), s) => (.error e, s)
      | (some (.ok r), s) =>
          queriesFrom corpus count degree firstId (r :: acc) (index + 1)
            remaining s

/-- `count` queries near members of a corpus, with ids from `firstId` on.
The room for all of them is made before anything is drawn, also where the
corpus has no members. -/
def queries (corpus : List Record) (count : Nat) (degree : Float)
    (firstId : UInt64) (s : Stream) :
    Except DatasetFault (List Record) × Stream :=
  if HasRoom count recordSize then
    queriesFrom corpus.toArray count degree firstId [] 0 count s
  else (.error .noRoom, s)

end KnnOracle.Synthetic
