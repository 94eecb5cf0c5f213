import SqlTree.Json.Printer
import SqlTree.Json.Reader
import SqlTree.Value

/-!
# Values in JSON

A value is written as the JSON value of its kind, which does not name the kind. There are two
readings: `ofJson?` looks at the JSON value, and a whole number is signed if it fits; `decode?`
tries the kinds in their order and takes the first that has the JSON value. Neither takes an array
or an object.
-/

namespace SqlTree

namespace WholeNumber

/-- A signed number of 64 bits. -/
def ofInt64 (n : Int64) : WholeNumber where
  value := n.toInt
  inRange := by
    have low := n.le_toInt
    have high := n.toInt_lt
    omega

/-- An unsigned number of 64 bits. -/
def ofUInt64 (n : UInt64) : WholeNumber where
  value := n.toNat
  inRange := by
    have high := n.toNat_lt
    omega

/-- The floating-point number nearest to a whole number. -/
def toBinary64 (n : WholeNumber) : Binary64 :=
  let magnitude := Binary64.ofNat n.value.natAbs
  if n.value < 0 then magnitude.neg else magnitude

end WholeNumber

namespace Value

/-! ## 1. JSON values -/

/-- A whole number as a value, signed if it fits. -/
def ofWhole (n : WholeNumber) : Value :=
  if n.value < 9223372036854775808 then .int (Int64.ofInt n.value)
  else .uint (UInt64.ofNat n.value.toNat)

def toJson : Value → Json
  | .null => .null
  | .bool b => .bool b
  | .int n => .whole (.ofInt64 n)
  | .uint n => .whole (.ofUInt64 n)
  | .float x => .float x
  | .text s => .text s

def ofJson? : Json → Option Value
  | .null => some .null
  | .bool b => some (.bool b)
  | .whole n => some (ofWhole n)
  | .float x => some (.float x)
  | .text s => some (.text s)
  | .array _ => none
  | .object _ => none

/-! ## 2. Kinds -/

/-- What a value is. -/
inductive Kind where
  | null
  | bool
  | int
  | uint
  | float
  | text
  deriving DecidableEq

namespace Kind

/-- The kinds in their order. -/
def all : List Kind := [.null, .bool, .int, .uint, .float, .text]

/-- A JSON value as a value of one kind. A kind of whole numbers takes those in its range, and a
    floating-point number may be written as a whole one. -/
def read? : Kind → Json → Option Value
  | .null, .null => some .null
  | .bool, .bool b => some (.bool b)
  | .int, .whole n =>
    if n.value < 9223372036854775808 then some (.int (Int64.ofInt n.value)) else none
  | .uint, .whole n => if 0 ≤ n.value then some (.uint (UInt64.ofNat n.value.toNat)) else none
  | .float, .whole n => some (.float n.toBinary64)
  | .float, .float x => some (.float x)
  | .text, .text s => some (.text s)
  | _, _ => none

end Kind

/-- A JSON value as a value of the first kind that takes it. -/
def decode? (j : Json) : Option Value := Kind.all.findSome? fun kind => kind.read? j

/-! ## 3. Text -/

/-- The text of a value. -/
def document (v : Value) : String := v.toJson.compact

/-- A value from its text. -/
def ofDocument? (text : String) : Option Value := (Json.parse text).bind decode?

end Value
end SqlTree
