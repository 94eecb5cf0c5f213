import SqlTree.Decimal.Numeral

/-!
# Floating-point numbers from text

A floating-point number is given by a numeral, by one of the words for what is no finite number,
in letters of either case and with an optional sign, or by its bit pattern in hexadecimal digits.
-/

namespace SqlTree.Binary64

/-- The number that a word stands for. -/
def ofWord? (word : List Char) : Option Binary64 :=
  match word.map Char.toLower with
  | ['n', 'a', 'n'] => some nan
  | ['i', 'n', 'f'] => some (infinity false)
  | ['i', 'n', 'f', 'i', 'n', 'i', 't', 'y'] => some (infinity false)
  | _ => none

/-- The number that a text stands for, given how a numeral is rounded. -/
def ofTextWith? (round : Numeral → Binary64) (text : String) : Option Binary64 :=
  let (negative, rest) := Numeral.sign text.toList
  match ofWord? rest with
  | some x => some (if negative then x.neg else x)
  | none => (Numeral.ofChars? text.toList).map round

/-- The number of 64 bits nearest to a numeral, or named by a word. -/
def ofText? : String → Option Binary64 := ofTextWith? Numeral.toBinary64

/-- The number of 32 bits nearest to a numeral, or named by a word. -/
def ofSingleText? : String → Option Binary64 := ofTextWith? Numeral.viaBinary32

/-- The value of a hexadecimal digit. -/
def hexValue? (c : Char) : Option Nat :=
  if '0' ≤ c ∧ c ≤ '9' then some (c.toNat - '0'.toNat)
  else if 'a' ≤ c ∧ c ≤ 'f' then some (c.toNat - 'a'.toNat + 10)
  else if 'A' ≤ c ∧ c ≤ 'F' then some (c.toNat - 'A'.toNat + 10)
  else none

/-- The number whose bit pattern is given by hexadecimal digits. -/
def ofHex? (digits : String) : Option Binary64 :=
  (digits.toList.foldlM (fun n c => (hexValue? c).map (16 * n + ·)) 0).map fun n =>
    ⟨UInt64.ofNat n⟩

/-- The bit pattern as sixteen hexadecimal digits. -/
def hex (x : Binary64) : String :=
  let digits := Nat.toDigits 16 x.bits.toNat
  String.ofList (List.replicate (16 - digits.length) '0' ++ digits)

end SqlTree.Binary64
