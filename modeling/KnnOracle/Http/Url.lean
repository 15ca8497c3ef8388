/-
Web addresses.

An address is read the way browsers read it. Blanks and control
characters at the ends are dropped, tabs and line breaks everywhere; a
backslash counts as a slash; single and double dots in the path are
resolved, also where a dot is written `%2e`, but never beyond the letter of
a drive. What may not stand in a path or a query is percent coded, and what
is percent coded already stays as it is. Requests can be sent to `http` and
`https` addresses only.
-/
import KnnOracle.Http.Host

namespace KnnOracle.Http

/-- An address. -/
structure Url where
  scheme : List Char
  host : Host
  /-- The number after the host, unless it is the usual one. -/
  number? : Option Nat
  /-- The names of the path; every one has a slash in front. -/
  path : List (List Char)
  query? : Option (List Char)
  fragment? : Option (List Char)

namespace Url

-- ============================================================= writing

/-- The host and the number after it. -/
def authority (u : Url) : List Char :=
  u.host.text ++ match u.number? with
    | none => []
    | some number => ':' :: Decimal.digitsOf number

/-- The path as text. -/
def pathText (u : Url) : List Char := u.path.flatMap fun name => '/' :: name

/-- A part with its mark in front, or nothing. -/
def marked (mark : Char) : Option (List Char) → List Char
  | none => []
  | some part => mark :: part

/-- What is asked of the server: path and query. -/
def target (u : Url) : String :=
  String.ofList (u.pathText ++ marked '?' u.query?)

/-- The whole address. -/
def text (u : Url) : String :=
  String.ofList
    (u.scheme ++ [':', '/', '/'] ++ u.authority ++ u.pathText
      ++ marked '?' u.query?
      ++ marked '#' u.fragment?)

-- ======================================================= percent coding

/-- Control characters and everything beyond ASCII. -/
def isUnprintable (c : Char) : Bool := c.toNat < 0x20 || 0x7E < c.toNat

/-- The characters that are coded in a fragment. -/
def escapedInFragment (c : Char) : Bool :=
  isUnprintable c || [' ', '"', '<', '>', '\x60'].contains c

/-- The characters that are coded in a query. -/
def escapedInQuery (c : Char) : Bool :=
  isUnprintable c || [' ', '"', '#', '<', '>', '\x27'].contains c

/-- The characters that are coded in a path. -/
def escapedInPath (c : Char) : Bool :=
  isUnprintable c || [' ', '"', '#', '<', '>', '?', '\x60', '\x7b',
    '\x7d'].contains c

-- ============================================================== reading

/-- Whether a character may stand at the end of an address for nothing. -/
def isPadding (c : Char) : Bool := c.toNat ≤ 0x20

/-- Drops the padding at both ends, and tabs and line breaks. -/
def clean (cs : List Char) : List Char :=
  ((cs.dropWhile isPadding).reverse.dropWhile isPadding).reverse.filter
    fun c =>
    c != '\t' && c != '\n' && c != '\r'

/-- Whether a character separates the names of a path. -/
def isSlash (c : Char) : Bool := c == '/' || c == '\\'

/-- The name with every coded dot written as a dot. -/
def plainDots : List Char → List Char
  | '%' :: '2' :: e :: rest =>
      if e = 'e' ∨ e = 'E' then '.' :: plainDots rest
      else '%' :: plainDots ('2' :: e :: rest)
  | c :: rest => c :: plainDots rest
  | [] => []

/-- Whether a name is the letter of a drive. -/
def isDrive : List Char → Bool
  | [letter, mark] => letter.isAlpha && (mark == ':' || mark == '|')
  | _ => false

/-- The names so far, last one first, without the last one. -/
def leave (acc : List (List Char)) : List (List Char) :=
  if (acc.head?.map isDrive).getD false then acc else acc.drop 1

/-- Puts the names of a path together; `acc` holds those so far, last one
first. A dot in last place stands for the folder, which ends in a slash. -/
def resolve (acc : List (List Char)) : List (List Char) → List (List Char)
  | [] => acc.reverse
  | name :: rest =>
      let dots := plainDots name
      if dots = ['.', '.'] then
        let acc := leave acc
        resolve (if rest.isEmpty then [] :: acc else acc) rest
      else if dots = ['.'] then
        resolve (if rest.isEmpty then [] :: acc else acc) rest
      else resolve (Text.percentEncode escapedInPath name :: acc) rest

/-- The names of a path that starts with a slash or is empty. -/
def pathOf : List Char → List (List Char)
  | [] => [[]]
  | _ :: rest => resolve [] (pieces isSlash rest)

/-- Cuts a text in front of the first character with a property. -/
def cutAt (p : Char → Bool) (cs : List Char) : List Char × List Char :=
  (cs.takeWhile fun c => !p c, cs.dropWhile fun c => !p c)

/-- The text after the mark of a part, if it has one. -/
def unmarked : List Char → Option (List Char)
  | [] => none
  | _ :: rest => some rest

/-- The number that a scheme uses where none is given, if the scheme names
a host in the usual way. -/
def usualNumber? (scheme : List Char) : Option Nat :=
  match String.ofList scheme with
  | "http" => some 80
  | "https" => some 443
  | "ws" => some 80
  | "wss" => some 443
  | "ftp" => some 21
  | _ => none

/-- Cuts an authority behind its host. Colons in brackets belong to the
host. -/
def cutHost (authority : List Char) : List Char × List Char :=
  match authority with
  | '[' :: _ =>
      let (inside, rest) := cutAt (· == ']') authority
      (inside ++ rest.take 1, rest.drop 1)
  | _ => cutAt (· == ':') authority

/-- The number after the colon of an authority, which may be left out. -/
def numberAfter? : List Char → Option (Option Nat)
  | [] => some none
  | ':' :: digits =>
      if !digits.all Decimal.isDigit then none
      else if digits.isEmpty then some none
      else
        let number := Decimal.valueOf 0 digits
        if number < 2 ^ 16 then some (some number) else none
  | _ => none

/-- Reads what follows the colon of a known scheme. Credentials in front of
the host are dropped. -/
def afterScheme? (scheme : List Char) (usual : Nat) (rest : List Char) :
    Option Url := do
  let rest := rest.dropWhile isSlash
  let (authority, rest) :=
    cutAt (fun c => isSlash c || c == '?' || c == '#') rest
  let (host, number) :=
    cutHost (authority.reverse.takeWhile (· != '@')).reverse
  let host ← Host.read? host
  let number ← numberAfter? number
  let (path, rest) := cutAt (fun c => c == '?' || c == '#') rest
  let (query, fragment) := cutAt (· == '#') rest
  some
    { scheme, host
      number? := number.filter (· ≠ usual)
      path := pathOf path
      query? := (unmarked query).map (Text.percentEncode escapedInQuery)
      fragment? :=
        (unmarked fragment).map (Text.percentEncode escapedInFragment) }

/-- Why an address cannot be used. -/
inductive Unusable where
  | malformed
  /-- An address that no request can be sent to. -/
  | refused (text : String)

/-- Whether a text is the name of a scheme. -/
def isScheme : List Char → Bool
  | [] => false
  | first :: rest =>
      first.isAlpha && rest.all fun c =>
        c.isAlphanum || c == '+' || c == '-' || c == '.'

/-- Whether a request can be sent to an address. -/
def isSendable (u : Url) : Bool :=
  (u.scheme = ['h', 't', 't', 'p'] || u.scheme = ['h', 't', 't', 'p', 's'])
    && u.authority.all (fun c => !(['"', '\x60', '\x7b', '\x7d'].contains c))
    && u.text.length < 2 ^ 16 - 1

/-- Reads an address. -/
def parse (text : String) : Except Unusable Url :=
  let cs := clean text.toList
  let (scheme, rest) := cutAt (· == ':') cs
  if rest.isEmpty || !isScheme scheme then .error .malformed
  else
    let scheme := scheme.map Char.toLower
    match usualNumber? scheme with
    | none =>
        .error (.refused
          (String.ofList (scheme ++ Text.percentEncode isUnprintable rest)))
    | some usual =>
        match afterScheme? scheme usual (rest.drop 1) with
        | none => .error .malformed
        | some url =>
            if url.isSendable then .ok url else .error (.refused url.text)

end Url

end KnnOracle.Http
