/-
Calls as requests.

A client knows the address of a service and, perhaps, a token. It writes
a call as a request and reads the response as the call's reply. A refusal
is reported with its body; a response with nothing but blanks in it
stands for the empty answer where there is one.
-/
import KnnOracle.Exchange.Conversation
import KnnOracle.Http.Message
import KnnOracle.Http.Url
import KnnOracle.Text.Blank

namespace KnnOracle.Http

open Json

/-- A client of one service. -/
structure Client where
  base : String
  token : Option String

namespace Client

/-- The address of the service on a host: slashes at the end of the host
are dropped. -/
def baseOf (host : String) : String :=
  String.ofList ((host.toList.reverse.dropWhile (· == '/')).reverse)
    ++ "/vectordb"

/-- A client of the service on a host. -/
def ofHost (host : String) (token : Option String) : Client :=
  ⟨baseOf host, token⟩

-- ============================================================= requests

/-- The path of a transaction's request. -/
def transactionPath (collection : String) (transaction : TransactionId)
    (verb : String) :
    String :=
  "/collections/" ++ collection ++ "/transactions/" ++ transaction.text
    ++ "/" ++ verb

/-- The method of a call, its path below the service's address, and its
body if it has one. -/
def parts : Call → Method × String × Option Value
  | .createCollection r => (.post, "/collections", some r.toJson)
  | .getCollection name => (.get, "/collections/" ++ name, none)
  | .deleteCollection name => (.delete, "/collections/" ++ name, none)
  | .createIndex r => (.post, "/indexes", some r.toJson)
  | .createTransaction collection =>
      (.post, "/collections/" ++ collection ++ "/transactions", none)
  | .upsert batch =>
      (.post, transactionPath batch.collection batch.transaction "upsert",
        some (UploadRequest.ofRecords batch.records).toJson)
  | .commit collection transaction =>
      (.post, transactionPath collection transaction "commit", none)
  | .abort collection transaction =>
      (.post, transactionPath collection transaction "abort", none)
  | .fetch r => (.post, "/fetch", some r.toJson)
  | .search r => (.post, "/search", some r.toJson)

/-- Whether a text can be the value of a header. -/
def isHeaderText (s : String) : Bool :=
  s.toList.all fun c => c == '\t' || (0x20 ≤ c.toNat && c.toNat != 0x7F)

/-- The value of a header as it arrives, without blanks at its end. -/
def trimHeader (s : String) : String :=
  String.ofList
    ((s.toList.reverse.dropWhile fun c => c == ' ' || c == '\t').reverse)

/-- Writes a call as a request and names its address, or tells why that
cannot be done. -/
def request? (c : Client) (call : Call) : Except String (Request × Url) :=
  let (method, path, body) := parts call
  let authorization? := c.token.map fun token => "Bearer " ++ token
  match Url.parse (c.base ++ path) with
  | .error .malformed => .error "builder error"
  | .error (.refused text) => .error ("builder error for url (" ++ text ++ ")")
  | .ok url =>
      if (authorization?.map isHeaderText).getD true then
        .ok
          ({ method
             target := url.target
             authorization? := authorization?.map trimHeader
             contentType? := body.map fun _ => "application/json"
             body := (body.map Value.render).getD "" }, url)
      else .error "builder error"

/-- What is said of a request without a response. -/
def noResponse (url : Url) : String :=
  "error sending request for url (" ++ url.text ++ ")"

-- ============================================================ responses

/-- The text of a body: a mark of the byte order in front is dropped. -/
def bodyText (body : String) : String :=
  match body.toList with
  | '\uFEFF' :: rest => String.ofList rest
  | _ => body

/-- Reads a body with a decoder. -/
def decoded {α : Type} (decoder : Tree → Option α) (body : String) :
    Except CallError α :=
  match Json.decode? decoder body with
  | some a => .ok a
  | none => .error (.unreadable "not the JSON that was asked for")

/-- Reads a body that may be blank. -/
def decodedOr {α : Type} (default : α) (decoder : Tree → Option α)
    (body : String) :
    Except CallError α :=
  let text := bodyText body
  if Text.isBlankText text then .ok default else decoded decoder text

/-- Any JSON value, nested as deep as a text may be. -/
def anyValue? (t : Tree) : Option Value := t.toValue? Tree.nestingLimit

/-- The neighbors in a body. -/
def neighborsIn (body : String) : Except CallError (List Neighbor) :=
  match decodedOr SearchAnswer.empty SearchAnswer.ofJson? body with
  | .error e => .error e
  | .ok answer =>
      match answer.neighbors? with
      | .ok list => .ok list
      | .error metric => .error (.incomparable metric)

/-- Reads the body of a response that is no refusal. -/
def readBody (body : String) : (call : Call) → Reply call
  | .createCollection _ => decodedOr .null anyValue? body
  | .getCollection _ => decodedOr .null anyValue? body
  | .deleteCollection _ => .ok ()
  | .createIndex _ => decodedOr .null anyValue? body
  | .createTransaction _ =>
      (decoded TransactionAnswer.ofJson? body).map TransactionAnswer.id
  | .upsert _ => .ok ()
  | .commit _ _ => .ok ()
  | .abort _ _ => .ok ()
  | .fetch _ => decoded Record.ofJson? body
  | .search _ => neighborsIn body

/-- Reads a response as the reply to a call. -/
def reply (call : Call) (response : Response) : Reply call :=
  if response.isSuccess then readBody response.body call
  else .error (.rejected call.action response.status (bodyText response.body))

-- ============================================================= exchange

/-- Something that takes requests and responds or does not. -/
abbrev Transport (m : Type → Type) : Type := Request → m (Option Response)

/-- The service that a client reaches over a transport. -/
def responder {m : Type → Type} [Monad m] (c : Client)
    (transport : Transport m) :
    Responder m := fun call =>
  match c.request? call with
  | .error reason => pure (.error (.unreachable reason))
  | .ok (request, url) => do
      match ← transport request with
      | none => pure (.error (.unreachable (noResponse url)))
      | some response => pure (reply call response)

end Client

end KnnOracle.Http
