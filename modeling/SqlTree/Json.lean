import SqlTree.Decimal.Binary64

/-!
# JSON values

A JSON value as a tree. Whole numbers that fit 64 bits, signed or unsigned, stay whole numbers
and every other number is a floating-point number. An object is the list of its fields as they
were given; `Json.canonical` sorts them by name, and of several fields with one name keeps the
last.
-/

namespace SqlTree

/-- A whole number that fits 64 bits, signed or unsigned. -/
structure WholeNumber where
  value : Int
  inRange : -9223372036854775808 ≤ value ∧ value < 18446744073709551616
  deriving DecidableEq

namespace WholeNumber

/-- A number as a whole number of 64 bits, if it fits. -/
def ofInt? (n : Int) : Option WholeNumber :=
  if h : -9223372036854775808 ≤ n ∧ n < 18446744073709551616 then some ⟨n, h⟩ else none

end WholeNumber

/-- A JSON value. -/
inductive Json where
  | null
  | bool (b : Bool)
  | whole (n : WholeNumber)
  | float (x : Binary64)
  | text (s : String)
  | array (items : List Json)
  | object (fields : List (String × Json))

namespace Json

/-! ## 1. Objects in canonical order -/

/-- A field put in its place among sorted fields, instead of one with the same name. -/
def insertField {α : Type} (name : String) (value : α) : List (String × α) → List (String × α)
  | [] => [(name, value)]
  | field :: rest =>
    if name = field.1 then (name, value) :: rest
    else if name < field.1 then (name, value) :: field :: rest
    else field :: insertField name value rest

/-- Fields sorted by name, the last of each name. -/
def sortFields {α : Type} (fields : List (String × α)) : List (String × α) :=
  fields.foldl (fun sorted field => insertField field.1 field.2 sorted) []

mutual

/-- The same value with every object sorted. -/
def canonical : Json → Json
  | .array items => .array (canonicalItems items)
  | .object fields => .object (sortFields (canonicalFields fields))
  | scalar => scalar

def canonicalItems : List Json → List Json
  | [] => []
  | item :: rest => canonical item :: canonicalItems rest

def canonicalFields : List (String × Json) → List (String × Json)
  | [] => []
  | (name, value) :: rest => (name, canonical value) :: canonicalFields rest

end

/-! ## 2. Equality -/

mutual

/-- Equality of values; whole and floating-point numbers are told apart. -/
def same : Json → Json → Bool
  | .null, .null => true
  | .bool a, .bool b => a == b
  | .whole a, .whole b => a == b
  | .float a, .float b => a.same b
  | .text a, .text b => a == b
  | .array as, .array bs => sameItems as bs
  | .object as, .object bs => sameFields as bs
  | _, _ => false

def sameItems : List Json → List Json → Bool
  | [], [] => true
  | a :: as, b :: bs => same a b && sameItems as bs
  | _, _ => false

def sameFields : List (String × Json) → List (String × Json) → Bool
  | [], [] => true
  | (name, a) :: as, (other, b) :: bs => name == other && same a b && sameFields as bs
  | _, _ => false

end

end Json
end SqlTree
