import SqlTree.Decimal.Binary64

/-!
# Decimal numerals

A numeral is a sign, a whole coefficient and a power of ten. `Numeral.ofChars?` reads one from
text with an optional fraction and exponent; `toBinary64` and `viaBinary32` give the nearest
floating-point number, the latter after rounding to the 32-bit format first.
-/

namespace SqlTree

/-- The number `coefficient * 10 ^ exponent` with a sign. -/
structure Numeral where
  negative : Bool
  coefficient : Nat
  exponent : Int
  deriving DecidableEq

namespace Numeral

/-! ## 1. Digits -/

/-- The value of a decimal digit. -/
def digitValue (c : Char) : Nat := c.toNat - '0'.toNat

/-- A run of digits as a number, after the digits read so far. -/
def digitsValue (start : Nat) (digits : List Char) : Nat :=
  digits.foldl (fun n c => 10 * n + digitValue c) start

/-- The leading digits of a text and what follows them. -/
def spanDigits (s : List Char) : List Char × List Char := s.span Char.isDigit

/-! ## 2. Reading -/

/-- A sign in front of a text. -/
def sign : List Char → Bool × List Char
  | '-' :: rest => (true, rest)
  | '+' :: rest => (false, rest)
  | rest => (false, rest)

/-- An exponent: a mark, an optional sign and at least one digit. Without a mark it is zero. -/
def exponentPart : List Char → Option (Int × List Char)
  | c :: rest =>
    if c = 'e' ∨ c = 'E' then
      let (negative, rest) := sign rest
      match spanDigits rest with
      | ([], _) => none
      | (digits, rest) =>
        let n : Int := digitsValue 0 digits
        some (if negative then -n else n, rest)
    else some (0, c :: rest)
  | [] => some (0, [])

/-- The digits behind a decimal point, if there is one. -/
def fractionPart : List Char → List Char × List Char
  | '.' :: rest => spanDigits rest
  | rest => ([], rest)

/-- A whole text as a numeral: digits with an optional point, then an optional exponent. -/
def ofChars? (s : List Char) : Option Numeral :=
  let (negative, rest) := sign s
  let (whole, rest) := spanDigits rest
  let (fraction, rest) := fractionPart rest
  if whole.isEmpty && fraction.isEmpty then none
  else
    match exponentPart rest with
    | some (exponent, []) =>
      some ⟨negative, digitsValue 0 (whole ++ fraction), exponent - fraction.length⟩
    | _ => none

/-! ## 3. The nearest floating-point number -/

/-- The magnitude as a quotient of naturals. -/
def ratio (n : Numeral) : Nat × Nat :=
  (n.coefficient * Nat.pow 10 n.exponent.toNat, Nat.pow 10 (-n.exponent).toNat)

/-- The position of the leading digit: the magnitude lies below `10 ^ n.order`. -/
def order (n : Numeral) : Int := n.exponent + (Nat.toDigits 10 n.coefficient).length

/-- Far from every finite number of the formats, a numeral is rounded by its order alone. -/
def extreme? (n : Numeral) : Option Binary64 :=
  if n.coefficient = 0 then some (Binary64.zero n.negative)
  else if n.order < -400 then some (Binary64.zero n.negative)
  else if 400 < n.order then some (Binary64.infinity n.negative)
  else none

/-- The nearest number of 64 bits. -/
def toBinary64 (n : Numeral) : Binary64 :=
  match n.extreme? with
  | some x => x
  | none => Binary64.ofRatio n.negative n.ratio.1 n.ratio.2

/-- The nearest number of 32 bits, widened to 64. -/
def viaBinary32 (n : Numeral) : Binary64 :=
  match n.extreme? with
  | some x => x
  | none =>
    match BinaryFormat.binary32.round n.ratio.1 n.ratio.2 with
    | none => Binary64.infinity n.negative
    | some (significand, scale) =>
      Binary64.ofRatio n.negative (significand * Nat.pow 2 scale.toNat) (Nat.pow 2 (-scale).toNat)

end Numeral
end SqlTree
