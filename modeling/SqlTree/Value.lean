import SqlTree.Decimal.NumberStyle
import SqlTree.Text.Quoting

/-!
# Values

A value is what a literal or a parameter holds. `Value.inline` is its text as SQL: the keywords
for null and truth values, decimal integers, floating-point numbers in `sqlNumber` style, and
quoted text.
-/

namespace SqlTree

/-- A value of a literal or a parameter. -/
inductive Value where
  | null
  | bool (b : Bool)
  | int (n : Int64)
  | uint (n : UInt64)
  | float (x : Binary64)
  | text (s : String)

/-- Floating-point numbers in SQL text: positional from `0.0001` to `999999`, otherwise with a
    signed exponent of at least two digits; of two equally near decimals the upper one. -/
def sqlNumber : NumberStyle where
  plainFrom := -4
  plainTo := 5
  pointZero := false
  exponentWidth := 2
  tie := .up
  nan := "NaN"
  infinity := "+Inf"
  negativeInfinity := "-Inf"

namespace Value

def isNull : Value → Bool
  | .null => true
  | _ => false

/-- The value as SQL text. -/
def inline : Value → String
  | .null => "NULL"
  | .bool true => "TRUE"
  | .bool false => "FALSE"
  | .int n => toString n.toInt
  | .uint n => toString n.toNat
  | .float x => sqlNumber.write x
  | .text s => "\x27" ++ Text.escapeString s ++ "\x27"

/-- Equality of values: kinds are told apart, numbers are compared as numbers. -/
def same : Value → Value → Bool
  | .null, .null => true
  | .bool a, .bool b => a == b
  | .int a, .int b => a == b
  | .uint a, .uint b => a == b
  | .float a, .float b => a.same b
  | .text a, .text b => a == b
  | _, _ => false

end Value
end SqlTree
