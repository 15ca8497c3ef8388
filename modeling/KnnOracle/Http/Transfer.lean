/-
Messages as bytes.

A message is a head of lines and a body. Every request asks the server to
close the connection after its response, so a response is what arrives
until then. The head of a response says how its body is to be read: in
chunks, each with its length in front, or as so many bytes, or as all
that follows. Responses that only announce another one are passed over.
-/
import KnnOracle.Http.Message
import KnnOracle.Json.Tree
import KnnOracle.Pieces

namespace KnnOracle.Http

-- ============================================================= requests

/-- A line of a head. -/
def headLine (name value : String) : String := name ++ ": " ++ value ++ "\r\n"

/-- The bytes of a request to a host. -/
def Request.bytes (r : Request) (host : String) : ByteArray :=
  let head :=
    r.method.text ++ " " ++ r.target ++ " HTTP/1.1\r\n"
      ++ headLine "Host" host
      ++ headLine "Accept" "*/*"
      ++ headLine "Connection" "close"
      ++ ((r.authorization?.map (headLine "Authorization")).getD "")
      ++ ((r.contentType?.map (headLine "Content-Type")).getD "")
      ++ (if r.method = .get then ""
        else headLine "Content-Length" (toString r.body.utf8ByteSize))
  (head ++ "\r\n" ++ r.body).toUTF8

-- ================================================================ lines

/-- Cuts bytes behind the first line feed. -/
def cutLine : List UInt8 → Option (List UInt8 × List UInt8)
  | [] => none
  | b :: rest =>
      if b = 0x0A then some ([], rest)
      else
        match cutLine rest with
        | none => none
        | some (line, rest) => some (b :: line, rest)

/-- What follows a line is shorter than the whole. -/
theorem length_lt_of_cutLine {bytes line rest : List UInt8}
    (h : cutLine bytes = some (line, rest)) :
    rest.length < bytes.length := by
  induction bytes generalizing line rest with
  | nil => cases h
  | cons b bytes ih =>
      simp only [cutLine] at h
      split at h
      · cases h
        exact Nat.lt_succ_self _
      · split at h
        · cases h
        · next hcut =>
            cases h
            exact Nat.lt_succ_of_lt (ih hcut)

/-- A line as text, without the carriage return at its end. -/
def lineText (line : List UInt8) : List Char :=
  (line.filter (· != 0x0D)).map fun b => Char.ofNat b.toNat

/-- The lines of a head and what follows the blank line at its end. -/
def cutHead (bytes : List UInt8) : Option (List (List Char) × List UInt8) :=
  match _h : cutLine bytes with
  | none => none
  | some (line, rest) =>
      if (lineText line).isEmpty then some ([], rest)
      else
        match cutHead rest with
        | none => none
        | some (lines, rest) => some (lineText line :: lines, rest)
termination_by bytes.length
decreasing_by exact length_lt_of_cutLine _h

-- =============================================================== bodies

/-- The value of the header with a name in small letters. -/
def header? (lines : List (List Char)) (name : String) : Option (List Char) :=
  lines.findSome? fun line =>
    let key := line.takeWhile (· != ':')
    if (key.map Char.toLower) = name.toList then
      some ((line.drop (key.length + 1)).dropWhile (· == ' '))
    else none

/-- A number in hexadecimal digits, up to the first other character. -/
def hexNumber (cs : List Char) : Nat :=
  (cs.takeWhile fun c => (Json.hexValue? c).isSome).foldl
    (fun n c => 16 * n + (Json.hexValue? c).getD 0) 0

/-- Puts the chunks of a body together; a chunk of no length is the last. -/
def joinChunks? (bytes : List UInt8) : Option (List UInt8) :=
  match _h : cutLine bytes with
  | none => none
  | some (line, rest) =>
      let size := hexNumber (lineText line)
      if size = 0 then some []
      else if rest.length < size then none
      else (joinChunks? (rest.drop (size + 2))).map fun more =>
        rest.take size ++ more
termination_by bytes.length
decreasing_by
  have := length_lt_of_cutLine _h
  simp only [List.length_drop]
  omega

/-- The body that a head announces, if all of it is there. -/
def bodyOf? (lines : List (List Char)) (rest : List UInt8) :
    Option (List UInt8) :=
  if (header? lines "transfer-encoding").isSome then joinChunks? rest
  else
    match header? lines "content-length" with
    | none => some rest
    | some digits =>
        let size := Decimal.valueOf 0 (digits.takeWhile Decimal.isDigit)
        if rest.length < size then none else some (rest.take size)

-- ============================================================ responses

/-- The status in the first line of a head. -/
def statusOf? (line : List Char) : Option Nat :=
  match pieces (· == ' ') line with
  | _ :: code :: _ =>
      if code.length = 3 ∧ code.all Decimal.isDigit then
        some (Decimal.valueOf 0 code) else none
  | _ => none

/-- Whether a status forbids a body. -/
def isBodiless (status : Nat) : Bool := status == 204 || status == 304

/-- Reads a response, passing over at most `announcements` others. -/
def Response.ofBytes? (bytes : List UInt8) :
    (announcements : Nat) → Option Response
  | 0 => none
  | announcements + 1 => do
      let (lines, rest) ← cutHead bytes
      let first :: headers := lines | none
      let status ← statusOf? first
      if status < 200 then Response.ofBytes? rest announcements
      else
        let body ← if isBodiless status then some [] else bodyOf? headers rest
        let text ← String.fromUTF8? ⟨body.toArray⟩
        some ⟨status, text⟩

end KnnOracle.Http
