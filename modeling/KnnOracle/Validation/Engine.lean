/-
Validating a service.

Every query is put to the service and to the oracle. The service's answer
is judged where the oracle has one too; a query that the oracle refuses
fails for that reason, whatever the service said. No query has any
influence on the outcome of another.
-/
import KnnOracle.Corpus.Search
import KnnOracle.Exchange.Conversation
import KnnOracle.Validation.Outcome

namespace KnnOracle

/-- What a service is validated against. -/
structure Validator where
  collection : String
  corpus : Corpus
  comparator : Comparator
  k : Nat
  /-- How many queries may be in flight; none counts as one. -/
  concurrency : Nat

namespace Validator

/-- The search that a query is put to the service as. -/
def searchOf (v : Validator) (query : Record) : SearchRequest :=
  ⟨v.collection, query.values, some v.k⟩

/-- Judges the reply to a query. -/
def judge (v : Validator) (query : Record) (reply : SearchReply) :
    Except QueryError Report :=
  match v.corpus.search query v.k with
  | .error e => .error (.oracle e)
  | .ok expected =>
      match reply with
      | .error e => .error (.service e)
      | .ok actual =>
          match v.comparator.compare expected actual with
          | .error e => .error (.oracle e)
          | .ok report => .ok report

/-- The outcome of a query. A conversation has no clock. -/
def outcome (v : Validator) (query : Record) (reply : SearchReply) :
    Outcome :=
  ⟨query.id, 0, v.judge query reply⟩

/-- What is counted of an outcome. -/
def eventsOf (o : Outcome) : List Event :=
  .queryValidated
    :: (o.report?.map fun r => Event.queryRecall r.recallRate).toList
    ++ if o.passed then [] else [.queryFailed]

/-- Validates queries; the outcomes are in the order of the queries. -/
def validateAll (v : Validator) (queries : List Record) :
    Conversation (List Outcome) :=
  .searchAll v.concurrency (queries.map v.searchOf) fun replies =>
    let outcomes := List.zipWith v.outcome queries replies
    .noteAll (outcomes.flatMap eventsOf) (.done outcomes)

end Validator

end KnnOracle
