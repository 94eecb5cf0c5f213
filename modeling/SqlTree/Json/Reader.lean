import SqlTree.Decimal.Text
import SqlTree.Json

/-!
# Reading JSON

A strict reader: blanks may stand around every token, no comma may trail, no control stands raw
in a string, an escaped surrogate needs its partner, and nothing may follow the value. Arrays and
objects nest to a given depth, which is what the reader recurses on.

A number with a fraction or an exponent, or that does not fit 64 bits, is read in two roundings:
as many leading digits as fit 64 bits are taken as one number (`leadingDigits`), which is then
scaled by a power of ten (`scale`). A number whose scaling overflows is refused.
-/

namespace SqlTree.Json

/-- A reader of something at the front of a text: what it read and the rest. -/
abbrev Reader (α : Type) := List Char → Option (α × List Char)

/-! ## 1. Blanks -/

def isBlank (c : Char) : Bool := c == ' ' || c == '\t' || c == '\n' || c == '\r'

def skipBlanks (s : List Char) : List Char := s.dropWhile isBlank

/-! ## 2. Strings -/

/-- The number that four hexadecimal digits write. -/
def hexQuad? (a b c d : Char) : Option Nat := do
  let high := (← Binary64.hexValue? a) * 16 + (← Binary64.hexValue? b)
  let low := (← Binary64.hexValue? c) * 16 + (← Binary64.hexValue? d)
  return high * 256 + low

/-- The character of a backslash and one more character. -/
def simpleEscape? (c : Char) : Option Char :=
  match c with
  | '\x22' => some '\x22'
  | '\\' => some '\\'
  | '/' => some '/'
  | 'b' => some '\x08'
  | 'f' => some '\x0c'
  | 'n' => some '\n'
  | 'r' => some '\r'
  | 't' => some '\t'
  | _ => none

/-- The first half of a surrogate pair. -/
def isHighSurrogate (n : Nat) : Bool := 0xD800 ≤ n && n < 0xDC00

/-- The second half of a surrogate pair. -/
def isLowSurrogate (n : Nat) : Bool := 0xDC00 ≤ n && n < 0xE000

/-- The character that a surrogate pair stands for. -/
def pairChar (high low : Nat) : Char :=
  Char.ofNat (0x10000 + (high - 0xD800) * 0x400 + (low - 0xDC00))

/-- A string behind its opening quote. -/
def stringBody : Reader (List Char)
  | [] => none
  | '\\' :: 'u' :: a :: b :: c :: d :: rest =>
    match hexQuad? a b c d with
    | none => none
    | some n =>
      if isLowSurrogate n then none
      else if isHighSurrogate n then
        match rest with
        | '\\' :: 'u' :: e :: f :: g :: h :: more =>
          match hexQuad? e f g h with
          | none => none
          | some low =>
            if isLowSurrogate low then
              (stringBody more).map fun (s, rest) => (pairChar n low :: s, rest)
            else none
        | _ => none
      else (stringBody rest).map fun (s, rest) => (Char.ofNat n :: s, rest)
  | '\\' :: c :: rest =>
    match simpleEscape? c with
    | none => none
    | some c => (stringBody rest).map fun (s, rest) => (c :: s, rest)
  | c :: rest =>
    if c = '\x22' then some ([], rest)
    else if c.toNat < 32 ∨ c = '\\' then none
    else (stringBody rest).map fun (s, rest) => (c :: s, rest)

/-! ## 3. Numbers -/

/-- As many leading digits, after a number, as keep it below `2 ^ 64`; and the digits left. -/
def leadingDigits (n : Nat) : List Char → Nat × List Char
  | [] => (n, [])
  | c :: rest =>
    let longer := 10 * n + Numeral.digitValue c
    if longer < Nat.pow 2 64 then leadingDigits longer rest else (n, c :: rest)

/-- A power of ten as a floating-point number. -/
def powerOfTen (places : Nat) : Binary64 := Binary64.ofNat (Nat.pow 10 places)

/-- The greatest power of ten that is finite. -/
def greatestPlaces : Nat := 308

/-- A magnitude divided by `10 ^ places`, the greatest finite power first as often as needed. -/
def shrink (x : Binary64) (places : Nat) : Binary64 :=
  if greatestPlaces < places then
    if x.isZero then x else shrink (x.div (powerOfTen greatestPlaces)) (places - greatestPlaces)
  else x.div (powerOfTen places)
termination_by places
decreasing_by simp only [greatestPlaces] at *; omega

/-- A number times a power of ten, unless it overflows. -/
def scale (n : Nat) (exponent : Int) : Option Binary64 :=
  if exponent < 0 then some (shrink (Binary64.ofNat n) (-exponent).toNat)
  else if greatestPlaces < exponent then if n = 0 then some (Binary64.zero false) else none
  else
    let x := (Binary64.ofNat n).mul (powerOfTen exponent.toNat)
    if x.isInfinite then none else some x

/-- The digits behind a point, if there is one; a point needs digits. -/
def fraction : Reader (Option (List Char))
  | '.' :: s =>
    match Numeral.spanDigits s with
    | ([], _) => none
    | (digits, rest) => some (some digits, rest)
  | s => some (none, s)

/-- The exponent behind a mark, if there is one; a mark needs digits. -/
def exponent : Reader (Option Int)
  | c :: rest =>
    if c = 'e' ∨ c = 'E' then (Numeral.exponentPart (c :: rest)).map fun (n, rest) => (some n, rest)
    else some (none, c :: rest)
  | [] => some (none, [])

/-- The value of a number from its parts. -/
def numberValue? (negative : Bool) (digits : List Char) (fraction : Option (List Char))
    (exponent : Option Int) : Option Json :=
  let signed (x : Binary64) : Json := .float (if negative then x.neg else x)
  let (n, left) := leadingDigits 0 digits
  if left.isEmpty && fraction.isNone && exponent.isNone then
    if negative then
      match WholeNumber.ofInt? (-n) with
      | some m => if n = 0 then some (signed (Binary64.ofNat n)) else some (.whole m)
      | none => some (signed (Binary64.ofNat n))
    else (WholeNumber.ofInt? n).map .whole
  else
    let places := fraction.getD []
    let (n, unread) := leadingDigits n places
    let power : Int := left.length - (places.length - unread.length : Nat) + exponent.getD 0
    (scale n power).map signed

/-- A number. Its whole part has no leading zero. -/
def number (s : List Char) : Option (Json × List Char) := do
  let (negative, s) := match s with | '-' :: s => (true, s) | s => (false, s)
  let (digits, s) := Numeral.spanDigits s
  if digits.isEmpty || (digits.head? == some '0' && 1 < digits.length) then none
  let (places, s) ← fraction s
  let (power, s) ← exponent s
  let value ← numberValue? negative digits places power
  return (value, s)

/-! ## 4. Values -/

/-- A word at the front of a text. -/
def word (expected : List Char) (value : Json) : Reader Json := fun s =>
  if expected.isPrefixOf s then some (value, s.drop expected.length) else none

/-- One item or more, a comma between each two, up to a closing mark. -/
def items {α : Type} (item : Reader α) (close : Char) : Nat → Reader (List α)
  | 0, _ => none
  | fuel + 1, s =>
    match item s with
    | none => none
    | some (first, s) =>
      match skipBlanks s with
      | [] => none
      | c :: s =>
        if c = ',' then (items item close fuel s).map fun (more, s) => (first :: more, s)
        else if c = close then some ([first], s)
        else none

/-- Items with their closing mark, possibly none. -/
def sequence {α : Type} (item : Reader α) (close : Char) : Reader (List α) := fun s =>
  match skipBlanks s with
  | [] => none
  | c :: rest => if c = close then some ([], rest) else items item close s.length (c :: rest)

/-- A field of an object, given a reader for its value. -/
def field (value : Reader Json) : Reader (String × Json) := fun s =>
  match skipBlanks s with
  | '\x22' :: s =>
    match stringBody s with
    | none => none
    | some (name, s) =>
      match skipBlanks s with
      | ':' :: s => (value s).map fun (v, s) => ((String.ofList name, v), s)
      | _ => none
  | _ => none

/-- A value, with arrays and objects nested no deeper than the given depth. -/
def value : Nat → Reader Json
  | depth, s =>
    match skipBlanks s with
    | [] => none
    | c :: rest =>
      if c = '\x22' then (stringBody rest).map fun (s, rest) => (.text (String.ofList s), rest)
      else if c = '[' then
        match depth with
        | 0 => none
        | depth + 1 =>
          (sequence (value depth) ']' rest).map fun (items, rest) => (.array items, rest)
      else if c = '\x7b' then
        match depth with
        | 0 => none
        | depth + 1 =>
          (sequence (field (value depth)) '\x7d' rest).map fun (fields, rest) =>
            (.object fields, rest)
      else if c = 'n' then word "null".toList .null (c :: rest)
      else if c = 't' then word "true".toList (.bool true) (c :: rest)
      else if c = 'f' then word "false".toList (.bool false) (c :: rest)
      else number (c :: rest)

/-- A whole text as a value. -/
def parseWithin (depth : Nat) (s : String) : Option Json :=
  match value depth s.toList with
  | some (j, rest) => if (skipBlanks rest).isEmpty then some j else none
  | none => none

/-- The depth to which documents may nest. -/
def documentDepth : Nat := 127

/-- A document as a value. -/
def parse (s : String) : Option Json := parseWithin documentDepth s

end SqlTree.Json
