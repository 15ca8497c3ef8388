/-
Tables of columns.

A columnar file is known here by its logical content: named columns of
one type each, all of one length, in which any entry may be missing.
Lists of floating-point numbers come in three shapes that differ only in
how a file stores them. A table can be cut into batches of rows, which is
how a reader goes through it.
-/
import KnnOracle.Decimal.Narrow

namespace KnnOracle.Storage

-- =========================================================== the types

/-- The types that an item of a list can have. -/
inductive ItemType where
  | float16
  | float32
  | float64
  | int32
deriving DecidableEq, Repr

namespace ItemType

/-- The name of the type. -/
def text : ItemType → String
  | .float16 => "Float16"
  | .float32 => "Float32"
  | .float64 => "Float64"
  | .int32 => "Int32"

/-- Whether the type holds floating-point numbers. -/
def isFloating : ItemType → Bool
  | .int32 => false
  | _ => true

/-- What becomes of a number that is stored with this type. -/
def store : ItemType → Float → Float
  | .float16, x => Decimal.BinaryFormat.binary16.roundTo x
  | .float32, x => Decimal.BinaryFormat.binary32.roundTo x
  | _, x => x

end ItemType

/-- How a column stores its lists. -/
inductive ListShape where
  | list
  | largeList
  | fixedSize (size : Nat)
deriving DecidableEq, Repr

/-- A column. Missing entries are `none`. -/
inductive Column where
  /-- Integers of a width in bits, with a sign or without. -/
  | integers (signed : Bool) (width : Nat) (values : List (Option Int))
  | float32 (values : List (Option Float))
  | float64 (values : List (Option Float))
  | texts (values : List (Option String))
  | bools (values : List (Option Bool))
  /-- Lists of numbers, whose items may be missing too. -/
  | lists (shape : ListShape) (item : ItemType)
      (rows : List (Option (List (Option Float))))

/-- The items of a list as its column describes them. -/
def itemField (item : ItemType) : String :=
  "Field \x7b name: \"item\", data_type: " ++ item.text ++
    ", nullable: true, dict_id: 0, dict_is_ordered: false, " ++
    "metadata: \x7b\x7d \x7d"

namespace Column

/-- The type of a column as text. -/
def typeText : Column → String
  | .integers true width _ => "Int" ++ toString width
  | .integers false width _ => "UInt" ++ toString width
  | .float32 _ => "Float32"
  | .float64 _ => "Float64"
  | .texts _ => "Utf8"
  | .bools _ => "Boolean"
  | .lists .list item _ => "List(" ++ itemField item ++ ")"
  | .lists .largeList item _ => "LargeList(" ++ itemField item ++ ")"
  | .lists (.fixedSize size) item _ =>
      "FixedSizeList(" ++ itemField item ++ ", " ++ toString size ++ ")"

/-- The number of entries. -/
def length : Column → Nat
  | .integers _ _ values => values.length
  | .float32 values => values.length
  | .float64 values => values.length
  | .texts values => values.length
  | .bools values => values.length
  | .lists _ _ rows => rows.length

/-- The first entries. -/
def take (n : Nat) : Column → Column
  | .integers signed width values => .integers signed width (values.take n)
  | .float32 values => .float32 (values.take n)
  | .float64 values => .float64 (values.take n)
  | .texts values => .texts (values.take n)
  | .bools values => .bools (values.take n)
  | .lists shape item rows => .lists shape item (rows.take n)

/-- All but the first entries. -/
def drop (n : Nat) : Column → Column
  | .integers signed width values => .integers signed width (values.drop n)
  | .float32 values => .float32 (values.drop n)
  | .float64 values => .float64 (values.drop n)
  | .texts values => .texts (values.drop n)
  | .bools values => .bools (values.drop n)
  | .lists shape item rows => .lists shape item (rows.drop n)

end Column

-- =========================================================== the tables

/-- Named columns of one length. -/
structure Table where
  columns : List (String × Column)

namespace Table

/-- The number of rows. -/
def rowCount (t : Table) : Nat :=
  (t.columns.head?.map fun c => c.2.length).getD 0

/-- The column with a name; of several the first. -/
def column? (t : Table) (name : String) : Option Column :=
  (t.columns.find? fun c => c.1 == name).map Prod.snd

/-- The first rows. -/
def take (n : Nat) (t : Table) : Table :=
  ⟨t.columns.map fun c => (c.1, c.2.take n)⟩

/-- All but the first rows. -/
def drop (n : Nat) (t : Table) : Table :=
  ⟨t.columns.map fun c => (c.1, c.2.drop n)⟩

/-- Batches of the given numbers of rows, from the first row on. -/
def cut : List Nat → Table → List Table
  | [], _ => []
  | n :: sizes, t => t.take n :: cut sizes (t.drop n)

/-- The sizes of batches of at most `size` rows. -/
def batchSizes (size rows : Nat) : List Nat :=
  List.replicate (rows / size) size ++ if rows % size = 0 then []
    else [rows % size]

/-- The table in batches of at most 1024 rows. -/
def batches (t : Table) : List Table := t.cut (batchSizes 1024 t.rowCount)

end Table

end KnnOracle.Storage
