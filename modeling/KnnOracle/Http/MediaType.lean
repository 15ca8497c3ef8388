/-
Media types.

A header names the kind of a body as `type/subtype`, in letters of either
case, perhaps with parameters behind semicolons. What follows the last plus
of a subtype is its suffix: it says how a body of this kind is written
down. Parameters count for nothing here, but they have to be parameters:
their text is read character by character (`Parameters.step`).
-/
namespace KnnOracle.Http

/-- Whether a character may stand in a token: a visible ASCII character
that is a letter, a digit or one of a few marks. -/
def isTokenChar (c : Char) : Bool :=
  c.isAlphanum || "!#$%&'*+-.^_\x60|~".toList.contains c

-- =========================================================== parameters

namespace Parameters

/-- How far the text of parameters was read. -/
inductive Reading where
  /-- A name may begin. -/
  | between
  | name
  /-- A value may begin, and it may be empty if nothing follows. -/
  | equals
  | token
  /-- A quoted value begins; it is not empty. -/
  | quote
  | quoted
  /-- Behind a quoted value. -/
  | closed

/-- Reads a character. -/
def step : Reading → Char → Option Reading
  | .between, c =>
      if c = ' ' then some .between
      else if isTokenChar c then some .name else none
  | .name, c =>
      if c = '=' then some .equals
      else if isTokenChar c then some .name else none
  | .equals, c =>
      if c = '"' then some .quote
      else if isTokenChar c then some .token else none
  | .token, c =>
      if c = ';' then some .between
      else if isTokenChar c then some .token else none
  | .quote, c => if 0x20 ≤ c.toNat ∧ c.toNat < 0x7F then some .quoted else none
  | .quoted, c =>
      if c = '"' then some .closed
      else if 0x20 ≤ c.toNat ∧ c.toNat < 0x7F then some .quoted else none
  | .closed, c =>
      if c = ';' then some .between
      else if c = ' ' then some .closed else none

/-- Whether a text may end where it was read to. -/
def Reading.isEnd : Reading → Bool
  | .between | .equals | .token | .closed => true
  | .name | .quote | .quoted => false

/-- Whether a text is one of parameters, perhaps of none. -/
def accept (text : List Char) : Bool :=
  (text.foldlM step .between).any Reading.isEnd

end Parameters

-- ================================================================= types

/-- A kind of bodies, in small letters. -/
structure MediaType where
  type : List Char
  subtype : List Char
  suffix? : Option (List Char)
deriving DecidableEq, Repr

namespace MediaType

/-- The kind with a subtype that may have a suffix behind a plus. A plus in
front of a subtype starts none. -/
def ofNames (type : List Char) : List Char → MediaType
  | [] => ⟨type, [], none⟩
  | first :: rest =>
      match rest.reverse.span (· != '+') with
      | (_, []) => ⟨type, first :: rest, none⟩
      | (suffix, _ :: before) =>
          ⟨type, first :: before.reverse, some suffix.reverse⟩

/-- The kind that a header names. -/
def ofText? (text : String) : Option MediaType :=
  let (type, rest) := text.toList.span isTokenChar
  match rest with
  | '/' :: rest =>
      let (subtype, rest) := rest.span isTokenChar
      let kind := ofNames (type.map Char.toLower) (subtype.map Char.toLower)
      if type.isEmpty then none
      else
        match rest with
        | [] => some kind
        | ';' :: parameters =>
            if !subtype.isEmpty && Parameters.accept parameters then some kind
            else none
        | _ => none
  | _ => none

/-- Whether bodies of a kind are JSON. -/
def isJson (kind : MediaType) : Bool :=
  kind.type == "application".toList &&
    (kind.subtype == "json".toList || kind.suffix? == some "json".toList)

end MediaType

/-- Whether a header announces JSON. -/
def announcesJson (header : String) : Bool :=
  (MediaType.ofText? header).any MediaType.isJson

example : announcesJson "Application/Problem+JSON; charset=\"utf-8\" "
  = true := by
  decide +kernel

example : announcesJson "application/json; charset" = false := by
  decide +kernel

end KnnOracle.Http
