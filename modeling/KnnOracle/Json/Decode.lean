/-
Making values of JSON trees.

A decoder takes a tree and answers with a value or refuses. Structures
may be written in two ways: as an object, in which unknown members are
passed over and known ones may not repeat, or as the list of their fields
in order. A list must have all fields; only fields that may be left out
can be missing at its end.

Free-form values (`Tree.toValue?`) are kept whole, so everything in them
must make sense: numbers must be finite, strings must be text, and lists
and objects may be nested only so deep. Their objects are sorted by key,
and of a repeated key the last value counts.
-/
import KnnOracle.Json.Tree
import KnnOracle.Json.Value
import KnnOracle.Powers

namespace KnnOracle.Json

-- ============================================================== scalars

/-- The binary64 nearest to a numeral, unless that is an infinity. -/
def Numeral.float? (n : Numeral) : Option Float :=
  let x := Decimal.signedNearest n.negative n.coefficient n.scale
  if x.isInf then none else some x

/-- The number of an integer literal without a minus. -/
def Numeral.natural? (n : Numeral) : Option Nat :=
  if n.integral ∧ !n.negative then some n.coefficient else none

/-- Text of code points: the two halves of a surrogate pair become one
character; a half that stands alone is no text. -/
def textOf? : Units → Option (List Char)
  | [] => some []
  | high :: rest =>
      if 0xD800 ≤ high ∧ high < 0xDC00 then
        match rest with
        | [] => none
        | low :: rest =>
            if 0xDC00 ≤ low ∧ low < 0xE000 then
              (textOf? rest).map
                (Char.ofNat
                  (0x10000 + (high - 0xD800) * 0x400 + (low - 0xDC00)) :: ·)
            else none
      else if 0xDC00 ≤ high ∧ high < 0xE000 then none
      else (textOf? rest).map (Char.ofNat high :: ·)

namespace Tree

/-- A natural number below a limit. -/
def natural? (limit : Nat) : Tree → Option Nat
  | .number n =>
      match n.natural? with
      | some k => if k < limit then some k else none
      | none => none
  | _ => none

/-- A number of 64 bits. -/
def natural64? (t : Tree) : Option Nat := t.natural? (2 ^ 64)

/-- A finite binary64, however it is written. -/
def float? : Tree → Option Float
  | .number n => n.float?
  | _ => none

/-- A string that is text. -/
def text? : Tree → Option String
  | .string units => (textOf? units).map String.ofList
  | _ => none

/-- A truth value. -/
def bool? : Tree → Option Bool
  | .bool b => some b
  | _ => none

/-- A list, all of whose items decode. -/
def list? {α : Type} (item? : Tree → Option α) : Tree → Option (List α)
  | .array items => items.mapM item?
  | _ => none

/-- A value or `null`. -/
def option? {α : Type} (some? : Tree → Option α) : Tree → Option (Option α)
  | .null => some none
  | t => (some? t).map some

-- ============================================================ structures

/-- The members of an object with their keys as text. -/
def keyed? : List (Units × Tree) → Option (List (String × Tree))
  | [] => some []
  | (key, t) :: rest => do
      let key ← textOf? key
      let rest ← keyed? rest
      some ((String.ofList key, t) :: rest)

/-- The one member with a name, if there is one; two are refused. -/
def unique? (members : List (String × Tree)) (name : String) :
    Option (Option Tree) :=
  match members.filter fun m => m.1 == name with
  | [] => some none
  | [(_, t)] => some (some t)
  | _ => none

/-- The fields of a structure, in order, with nothing where a member of
an object is missing. Of a list, the last `omissible` fields may be left
out. -/
def fields? (names : List String) (omissible : Nat) :
    Tree → Option (List (Option Tree))
  | .object members => do
      let members ← keyed? members
      names.mapM (unique? members)
  | .array items =>
      if items.length ≤ names.length ∧
        names.length ≤ items.length + omissible then
        some (items.map some ++ List.replicate
          (names.length - items.length) none)
      else none
  | _ => none

/-- A field that may be missing or `null`. -/
def optionalField? {α : Type} (some? : Tree → Option α) :
    Option Tree → Option (Option α)
  | none => some none
  | some t => t.option? some?

-- ======================================================= free-form values

/-- Puts a member where its key belongs; it replaces one with the same
key. -/
def putMember (key : String) (v : Value) :
    List (String × Value) → List (String × Value)
  | [] => [(key, v)]
  | (k, w) :: rest =>
      if key < k then (key, v) :: (k, w) :: rest
      else if key = k then (key, v) :: rest
      else (k, w) :: putMember key v rest

/-- Members sorted by key, of equal keys the last. -/
def sortMembers (members : List (String × Value)) : List (String × Value) :=
  members.foldl (fun sorted m => putMember m.1 m.2 sorted) []

/-- An integer of 64 bits, signed or not, stays one; any other number is
read as a binary64. -/
def numberValue? (n : Numeral) : Option Value :=
  if n.integral ∧ !n.negative ∧
    n.coefficient < 2 ^ 64 then some (.int n.coefficient)
  else if n.integral ∧ n.negative ∧ 0 < n.coefficient ∧
    n.coefficient ≤ 2 ^ 63 then
    some (.int (-(n.coefficient : Int)))
  else n.float?.map .real

mutual

/-- A free-form value in which at most `depth` lists and objects are
nested. -/
def toValue? (depth : Nat) : Tree → Option Value
  | .null => some .null
  | .bool b => some (.bool b)
  | .number n => numberValue? n
  | .string units => (textOf? units).map fun cs => .text (String.ofList cs)
  | .array items =>
      if depth = 0 then none else (toValues? (depth - 1) items).map .list
  | .object members =>
      if depth = 0 then none
      else (toMembers? (depth - 1) members).map fun ms =>
        .object (sortMembers ms)

/-- The items of a list. -/
def toValues? (depth : Nat) : List Tree → Option (List Value)
  | [] => some []
  | t :: rest => do
      let v ← toValue? depth t
      let vs ← toValues? depth rest
      some (v :: vs)

/-- The members of an object. -/
def toMembers? (depth : Nat) :
    List (Units × Tree) → Option (List (String × Value))
  | [] => some []
  | (key, t) :: rest => do
      let key ← textOf? key
      let v ← toValue? depth t
      let ms ← toMembers? depth rest
      some ((String.ofList key, v) :: ms)

end

/-- How deep kept lists and objects may be nested, counted from the
outermost one of the text. -/
def nestingLimit : Nat := 127

end Tree

/-- Reads a text with a decoder. -/
def decode? {α : Type} (decoder : Tree → Option α) (text : String) :
    Option α :=
  (Tree.parse? text).bind decoder

end KnnOracle.Json
