/-
Comparing a service's answer with the oracle's.

The oracle's answer is the truth. The service's answer is judged on three
points: which of the true ids it found, how far its scores lie from the
true ones, and which ids it named beyond them. An id counts where it
occurs first; later occurrences in the service's answer are only listed.

Whether missing and surplus ids are failures depends on what the service
promises (`SearchMode`): an exact index has to name the very same ids, an
approximate one only has to reach a recall. A deviation that is a NaN
exceeds every tolerance.
-/
import Std.Data.HashMap
import Std.Data.HashSet
import KnnOracle.Fault
import KnnOracle.Ranking

namespace KnnOracle

-- ====================================================== extreme values

/-- The larger of two numbers; a NaN loses against any number. -/
def larger (a b : Float) : Float :=
  if a.isNaN then b else if b.isNaN then a else if a < b then b else a

/-- The smaller of two numbers; a NaN loses against any number. -/
def smaller (a b : Float) : Float :=
  if a.isNaN then b else if b.isNaN then a else if b < a then b else a

/-- Combines the elements of a list from the left, if there are any. -/
def reduce? {α : Type} (f : α → α → α) : List α → Option α
  | [] => none
  | x :: rest => some (rest.foldl f x)

-- ========================================================== the report

/-- What the service promises about its answers. -/
inductive SearchMode where
  | exact
  | approximate
deriving DecidableEq, Repr, Inhabited

/-- The name of a mode. -/
def SearchMode.text : SearchMode → String
  | .exact => "exact"
  | .approximate => "approximate"

/-- The two scores of an id that both sides named. -/
structure ScoreDelta where
  id : RecordId
  oracleScore : Score
  serviceScore : Score
  delta : Float

/-- The judgement on one answer. -/
structure Report where
  mode : SearchMode
  /-- The number of different ids in the oracle's answer. -/
  k : Nat
  tolerance : Float
  minRecall : Float
  recallRate : Float
  /-- The true ids that the service named, in the oracle's order. -/
  matched : List ScoreDelta
  /-- Those of `matched` that deviate too far. -/
  scoreMismatches : List ScoreDelta
  /-- The other ids that the service named, in its order. -/
  falsePositives : List RecordId
  /-- The true ids that the service missed, in the oracle's order. -/
  falseNegatives : List RecordId
  /-- The ids that the service named more than once. -/
  duplicates : List RecordId
  /-- Whether the service's answer was ranked. -/
  serviceRanked : Bool

namespace Report

/-- Whether the answer is acceptable. -/
def passed (r : Report) : Bool :=
  if !r.scoreMismatches.isEmpty || !r.duplicates.isEmpty then false
  else match r.mode with
    | .exact => r.falsePositives.isEmpty && r.falseNegatives.isEmpty
    | .approximate => decide (r.minRecall ≤ r.recallRate)

/-- The largest deviation, if any id was matched. -/
def maxDelta? (r : Report) : Option Float :=
  reduce? larger (r.matched.map ScoreDelta.delta)

end Report

-- ====================================================== the comparator

/-- The score deviation that is accepted by default. Services that store
vectors in eight bits drift by about this much. -/
def defaultTolerance : Float := 0.01

/-- How many neighbors are asked for by default. -/
def defaultK : Nat := 5

/-- What an answer is held to. -/
structure Comparator where
  tolerance : Float := defaultTolerance
  mode : SearchMode := .approximate
  minRecall : Float := 0.0

namespace Comparator

/-- The tolerance must be a number of at least zero, and is looked at
first; the recall must lie between zero and one. -/
def thresholdFault? (c : Comparator) : Option Fault :=
  if !c.tolerance.isFinite || c.tolerance < 0.0 then
    some (.invalidThreshold .tolerance c.tolerance)
  else if 0.0 ≤ c.minRecall && c.minRecall ≤ 1.0 then none
  else some (.invalidThreshold .minRecall c.minRecall)

/-- Separates the first occurrence of each id from its repetitions, both
in the order given; `seen` holds the ids that occurred before. -/
def separate (seen : Std.HashSet RecordId) :
    List Neighbor → List Neighbor × List Neighbor
  | [] => ([], [])
  | n :: rest =>
      if seen.contains n.id then
        let (firsts, repeats) := separate seen rest
        (firsts, n :: repeats)
      else
        let (firsts, repeats) := separate (seen.insert n.id) rest
        (n :: firsts, repeats)

/-- The scores of a list in which no id repeats. -/
def scoresOf (list : List Neighbor) : Std.HashMap RecordId Score :=
  list.foldl (fun m n => m.insert n.id n.score) {}

/-- Matches one true neighbor with the service's scores. -/
def delta? (scores : Std.HashMap RecordId Score) (n : Neighbor) :
    Option ScoreDelta :=
  scores[n.id]?.map fun s =>
    ⟨n.id, n.score, s, (n.score.toFloat - s.toFloat).abs⟩

/-- Judges a service's answer against the oracle's. -/
def compare (c : Comparator) (oracle service : List Neighbor) :
    Except Fault Report :=
  match c.thresholdFault? with
  | some fault => .error fault
  | none =>
      let (named, repeats) := separate {} service
      let (truth, _) := separate {} oracle
      let serviceScores := scoresOf named
      let oracleScores := scoresOf truth
      let matched := truth.filterMap (delta? serviceScores)
      .ok
        { mode := c.mode
          k := truth.length
          tolerance := c.tolerance
          minRecall := c.minRecall
          recallRate :=
            if truth.isEmpty then 1.0
            else Float.ofNat matched.length / Float.ofNat truth.length
          matched := matched
          scoreMismatches := matched.filter fun m => !(m.delta ≤ c.tolerance)
          falsePositives :=
            (named.filter fun n => !oracleScores.contains n.id).map Neighbor.id
          falseNegatives :=
            (truth.filter fun n => !serviceScores.contains n.id).map
              Neighbor.id
          duplicates := (repeats.map Neighbor.id).eraseDups
          serviceRanked := Neighbor.isRanked service }

end Comparator

end KnnOracle
