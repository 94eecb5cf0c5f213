import SqlTree.Json

/-!
# Records in JSON

A record is an object with its fields by name, or an array with their values in order of
declaration. Unknown names are ignored, and a known name may occur only once. In a tagged record
one field more says which kind it is; in an array it comes first. A keyword is a string, or an
object with that one name and a null.

All of this works on fields with values of any type, so that a recursive reading can carry along
what it knows about each value.
-/

namespace SqlTree.Json

/-- The fields of a record. -/
inductive Fields (α : Type) where
  | named (fields : List (String × α))
  | positional (items : List α)

namespace Fields

variable {α : Type}

/-- The value of a known name: `none` if it occurs twice, `some none` if it is missing. -/
def lookup? (fields : List (String × α)) (name : String) : Option (Option α) :=
  match fields.filter fun field => field.1 == name with
  | [] => some none
  | [(_, value)] => some (some value)
  | _ => none

/-- The values of the known names in their order; a missing one is `none`. -/
def slots? (names : List String) : Fields α → Option (List (Option α))
  | .named fields => names.mapM (lookup? fields)
  | .positional items =>
    if items.length ≤ names.length then
      some (items.map some ++ List.replicate (names.length - items.length) none)
    else none

/-- The tag of a record and its other fields. -/
def tagged? (tag : String) : Fields α → Option (α × Fields α)
  | .named fields =>
    match lookup? fields tag with
    | some (some value) => some (value, .named (fields.filter fun field => field.1 != tag))
    | _ => none
  | .positional [] => none
  | .positional (value :: items) => some (value, .positional items)

/-- Whether a kind without fields of its own can have these. -/
def vacuous : Fields α → Bool
  | .named _ => true
  | .positional items => items.isEmpty

end Fields

/-- The fields of a value that can be a record. -/
def fields? : Json → Option (Fields Json)
  | .object fields => some (.named fields)
  | .array items => some (.positional items)
  | _ => none

def text? : Json → Option String
  | .text s => some s
  | _ => none

def bool? : Json → Option Bool
  | .bool b => some b
  | _ => none

def items? : Json → Option (List Json)
  | .array items => some items
  | _ => none

/-- A whole number that is not negative. -/
def nat? : Json → Option Nat
  | .whole n => if 0 ≤ n.value then some n.value.toNat else none
  | _ => none

/-- The first field of an object with a name. -/
def field? (j : Json) (name : String) : Option Json :=
  match j with
  | .object fields => fields.lookup name
  | _ => none

/-- A keyword: a string, or an object with that one name and a null. -/
def keyword? : Json → Option String
  | .text s => some s
  | .object [(name, .null)] => some name
  | _ => none

/-- A field that may be missing, in which case it has a default. -/
def orDefault {α : Type} (read : Json → Option α) (value : α) : Option Json → Option α
  | none => some value
  | some j => read j

end SqlTree.Json
