/-
Paths of files.

A path is a text of names with slashes between them. Empty names and
single dots lead nowhere and are passed over, and two dots lead back to
where the folder itself stands. The extension is what follows the last dot
of the last name; a dot in front of a name hides the file and starts no
extension.
-/
import KnnOracle.Pieces
import KnnOracle.Storage.Content

namespace KnnOracle.Storage

/-- A name of a file or a folder. -/
abbrev Name : Type := List Char

namespace Name

/-- Whether a name leads nowhere. -/
def isIdle (name : Name) : Bool := name == [] || name == ['.']

/-- Whether a name leads back. -/
def isBack (name : Name) : Bool := name == ['.', '.']

/-- Whether a name takes more bytes than a folder keeps of one. -/
def isTooLong (name : Name) : Bool :=
  decide (255 < (String.ofList name).utf8ByteSize)

/-- The extension of a name, without its dot; empty if there is none. -/
def extension : Name → List Char
  | [] => []
  | _ :: rest =>
      if rest.contains '.' then
        (rest.reverse.takeWhile (· != '.')).reverse
      else []

end Name

/-- All names of a path, those that lead nowhere included. -/
def namesOf (path : String) : List Name := pieces (· == '/') path.toList

/-- What is wrong with a path before it leads anywhere. -/
def fault? (path : String) : Option FileFault :=
  if path.toList.contains '\x00' then some .nameWithNul
  else if path.toList.isEmpty then some .notFound
  else if 4096 ≤ path.utf8ByteSize then some .nameTooLong
  else none

/-- The names of the folders to go through, and the name under which
something may stand in the last of them. There is none if the path ends in
a name that leads nowhere or back. Slashes at the end do not count. -/
def route (path : String) : List Name × Option Name :=
  match (namesOf path).reverse.dropWhile List.isEmpty with
  | [] => ([], none)
  | last :: before =>
      if Name.isIdle last || Name.isBack last then
        ((last :: before).reverse, none)
      else (before.reverse, some last)

/-- Whether a path ends in a slash. What it leads to has to be a folder. -/
def endsInSlash (path : String) : Bool := path.toList.getLast? == some '/'

/-- The extension of a path in lower-case letters. Only ASCII letters
have cases here. -/
def extension (path : String) : String :=
  match ((namesOf path).filter (!·.isIdle)).getLast? with
  | some name => String.ofList (name.extension.map Char.toLower)
  | none => ""

end KnnOracle.Storage
