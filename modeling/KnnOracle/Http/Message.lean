/-
Requests and responses.

Only what client and service look at is kept of a message. Bodies are
text. A response with a status that forbids a body has an empty one.
-/
namespace KnnOracle.Http

/-- The methods in use. -/
inductive Method where
  | get
  | post
  | delete
deriving DecidableEq, Repr

/-- The name of a method. -/
def Method.text : Method → String
  | .get => "GET"
  | .post => "POST"
  | .delete => "DELETE"

/-- A request as it is sent. -/
structure Request where
  method : Method
  /-- Path and query. -/
  target : String
  authorization? : Option String
  contentType? : Option String
  body : String

/-- A response as it is received. -/
structure Response where
  status : Nat
  body : String

/-- Whether a status means that the request was carried out. -/
def Response.isSuccess (r : Response) : Bool :=
  200 ≤ r.status && r.status < 300

end KnnOracle.Http
