import SqlTree.Decimal.NumberStyle
import SqlTree.Json

/-!
# JSON text

The compact text of a JSON value: no blanks, fields in the order of the object. In strings only
the quote, the backslash and the controls below the space are escaped. A floating-point number
that is not finite has no JSON text of its own and is written as null.
-/

namespace SqlTree.Json

/-- Floating-point numbers in JSON: positional for exponents from -5 to 15 and then with a point,
    otherwise with a signed exponent; of two equally near decimals the even one. -/
def numberStyle : NumberStyle where
  plainFrom := -5
  plainTo := 15
  pointZero := true
  exponentWidth := 1
  tie := .toEven
  nan := "null"
  infinity := "null"
  negativeInfinity := "null"

/-! ## 1. Strings -/

/-- The digit of a number below sixteen. -/
def hexDigit (n : Nat) : Char := Nat.digitChar n

/-- One character inside a string. -/
def escapeChar (c : Char) : List Char :=
  match c with
  | '\x22' => ['\\', '\x22']
  | '\\' => ['\\', '\\']
  | '\x08' => ['\\', 'b']
  | '\x0c' => ['\\', 'f']
  | '\n' => ['\\', 'n']
  | '\r' => ['\\', 'r']
  | '\t' => ['\\', 't']
  | c =>
    if c.toNat < 32 then ['\\', 'u', '0', '0', hexDigit (c.toNat / 16), hexDigit (c.toNat % 16)]
    else [c]

/-- A string between its quotes. -/
def stringText (s : String) : List Char :=
  '\x22' :: (s.toList.flatMap escapeChar ++ ['\x22'])

/-! ## 2. Values -/

/-- The text of a value that holds no others. -/
def wholeText (n : WholeNumber) : List Char := (toString n.value).toList

mutual

/-- The text of a value. -/
def print : Json → List Char
  | .null => "null".toList
  | .bool true => "true".toList
  | .bool false => "false".toList
  | .whole n => wholeText n
  | .float x => (numberStyle.write x).toList
  | .text s => stringText s
  | .array [] => ['[', ']']
  | .array (item :: rest) => '[' :: (print item ++ printItems rest)
  | .object [] => ['\x7b', '\x7d']
  | .object ((name, value) :: rest) =>
    '\x7b' :: (stringText name ++ ':' :: print value ++ printFields rest)

/-- Further items of an array up to its end. -/
def printItems : List Json → List Char
  | [] => [']']
  | item :: rest => ',' :: (print item ++ printItems rest)

/-- Further fields of an object up to its end. -/
def printFields : List (String × Json) → List Char
  | [] => ['\x7d']
  | (name, value) :: rest => ',' :: (stringText name ++ ':' :: print value ++ printFields rest)

end

/-- The compact text of a value. -/
def compact (j : Json) : String := String.ofList j.print

end SqlTree.Json
