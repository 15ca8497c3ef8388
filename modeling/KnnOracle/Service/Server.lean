/-
The service behind messages.

A request is admitted by its token, routed by its path and method, and
decoded into a call; the answer is encoded into a response. A path is
routed as it was sent: only the names taken out of it are percent
decoded. A name may be empty except in last place.
-/
import KnnOracle.Http.Client
import KnnOracle.Http.MediaType
import KnnOracle.Service.Step

namespace KnnOracle.Service

open Http Json

-- ============================================================== routing

/-- The things that a path can lead to. -/
inductive Endpoint where
  | collections
  | collection (name : List Char)
  | indexes
  | transactions (collection : List Char)
  | upsert (collection transaction : List Char)
  | commit (collection transaction : List Char)
  | abort (collection transaction : List Char)
  | search
  | fetch

namespace Endpoint

/-- Where the names of a path below the service lead. -/
def ofNames? : List (List Char) → Option Endpoint
  | [a] =>
      let word := String.ofList a
      if word = "collections" then some .collections
      else if word = "indexes" then some .indexes
      else if word = "search" then some .search
      else if word = "fetch" then some .fetch
      else none
  | [a, name] =>
      if String.ofList a = "collections" ∧
        name ≠ [] then some (.collection name) else none
  | [a, name, b] =>
      if String.ofList a = "collections" ∧
        String.ofList b = "transactions" then
        some (.transactions name)
      else none
  | [a, name, b, transaction, verb] =>
      if String.ofList a = "collections" ∧
        String.ofList b = "transactions" then
        let word := String.ofList verb
        if word = "upsert" then some (.upsert name transaction)
        else if word = "commit" then some (.commit name transaction)
        else if word = "abort" then some (.abort name transaction)
        else none
      else none
  | _ => none

/-- Where a path leads. -/
def ofTarget? (target : String) : Option Endpoint :=
  match pieces (· == '/') (target.toList.takeWhile (· != '?')) with
  | [] :: root :: names =>
      if String.ofList root = "vectordb" then ofNames? names else none
  | _ => none

end Endpoint

-- ============================================================= decoding

/-- A response with a text. -/
def textResponse (status : Nat) (text : String) : Response := ⟨status, text⟩

/-- A name out of a path, under what it is called in messages. -/
def nameOf? (label : String) (raw : List Char) : Except Response String :=
  match Text.percentDecode? raw with
  | some name => .ok name
  | none =>
      .error (textResponse 400
        ("Invalid URL: Invalid UTF-8 in \x60" ++ label ++ "\x60"))

/-- The largest body that is taken. -/
def bodyLimit : Nat := 2 * 1024 * 1024

/-- Decodes the body of a request. It has to be announced as JSON. -/
def bodyOf? {α : Type} (decoder : Tree → Option α) (r : Request) :
    Except Response α :=
  if !r.contentType?.any announcesJson then
    .error (textResponse 415
      "Expected request with \x60Content-Type: application/json\x60")
  else if bodyLimit < r.body.utf8ByteSize then
    .error (textResponse 413
      "Failed to buffer the request body: length limit exceeded")
  else
    match Tree.parse? r.body with
    | none =>
        .error (textResponse 400 "Failed to parse the request body as JSON")
    | some tree =>
        match decoder tree with
        | some a => .ok a
        | none =>
            .error (textResponse 422
              "Failed to deserialize the JSON body into the target type")

/-- The response to a method that an endpoint does not know. -/
def methodNotAllowed : Response := textResponse 405 ""

/-- The names of a transaction's request. -/
def transactionOf? (collection transaction : List Char) :
    Except Response (String × TransactionId) := do
  let collection ← nameOf? "name" collection
  let transaction ← nameOf? "txn" transaction
  .ok (collection, ⟨transaction⟩)

/-- The call that a request to an endpoint makes. -/
def callOf? (r : Request) : Endpoint → Except Response Call
  | .collections =>
      if r.method = .post then
        (bodyOf? CollectionRequest.ofJson? r).map .createCollection
      else .error methodNotAllowed
  | .collection name =>
      match r.method with
      | .get => (nameOf? "name" name).map .getCollection
      | .delete => (nameOf? "name" name).map .deleteCollection
      | .post => .error methodNotAllowed
  | .indexes =>
      if r.method = .post then
        (bodyOf? IndexRequest.ofJson? r).map .createIndex
      else .error methodNotAllowed
  | .transactions name =>
      if r.method = .post then (nameOf? "name" name).map .createTransaction
      else .error methodNotAllowed
  | .upsert name transaction =>
      if r.method = .post then do
        let (collection, id) ← transactionOf? name transaction
        let body ← bodyOf? UploadRequest.ofJson? r
        .ok (.upsert ⟨collection, id, body.records⟩)
      else .error methodNotAllowed
  | .commit name transaction =>
      if r.method = .post then do
        let (collection, id) ← transactionOf? name transaction
        .ok (.commit collection id)
      else .error methodNotAllowed
  | .abort name transaction =>
      if r.method = .post then do
        let (collection, id) ← transactionOf? name transaction
        .ok (.abort collection id)
      else .error methodNotAllowed
  | .search =>
      if r.method = .post then (bodyOf? SearchRequest.ofJson? r).map .search
      else .error methodNotAllowed
  | .fetch =>
      if r.method = .post then (bodyOf? FetchRequest.ofJson? r).map .fetch
      else .error methodNotAllowed

-- ============================================================= encoding

/-- A response with a JSON body. -/
def jsonResponse (v : Value) : Response := ⟨200, v.render⟩

/-- A response without a body. -/
def noContent : Response := ⟨204, ""⟩

/-- The response that carries an answer. -/
def responseOf : (call : Call) → call.Answer → Response
  | .createCollection _, document => jsonResponse document
  | .getCollection _, document => jsonResponse document
  | .deleteCollection _, _ => noContent
  | .createIndex _, document => jsonResponse document
  | .createTransaction _, id => jsonResponse (TransactionAnswer.toJson ⟨id⟩)
  | .upsert _, _ => noContent
  | .commit _ _, _ => noContent
  | .abort _ _, _ => noContent
  | .fetch _, r => jsonResponse r.toJson
  | .search _, list => jsonResponse (SearchAnswer.ofNeighbors list).toJson

-- =========================================================== the server

/-- Whether a request carries the token, if one is asked for. A header
with anything but visible ASCII carries none. -/
def isAdmitted (o : Options) (r : Request) : Bool :=
  match o.token with
  | none => true
  | some token =>
      match r.authorization? with
      | none => false
      | some header =>
          (header.toList.all fun c =>
            c == '\t' || (0x20 ≤ c.toNat && c.toNat < 0x7F))
            && header == "Bearer " ++ token

/-- Answers a request. -/
def serve (o : Options) (r : Request) (s : State) : Response × State :=
  if !isAdmitted o r then (textResponse 401 "", s)
  else
    match Endpoint.ofTarget? r.target with
    | none => (textResponse 404 "", s)
    | some endpoint =>
        match callOf? r endpoint with
        | .error response => (response, s)
        | .ok call =>
            match step o s call with
            | (.ok answer, s) => (responseOf call answer, s)
            | (.error e, s) => (textResponse e.status e.text, s)

/-- The server as a transport. -/
def transport (o : Options) : Client.Transport (StateM State) := fun r =>
  modifyGet fun s =>
    let (response, s) := serve o r s
    (some response, s)

end KnnOracle.Service
