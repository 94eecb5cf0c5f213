/-!
# Binary floating-point numbers

A `Binary64` is its 64 bits: a sign, eleven bits of exponent and 52 bits of fraction. This file
fixes their reading as numbers and the one rounding that every operation needs:

* a finite number is `significand * 2 ^ scale` with its sign (`significand`, `scale`);
* two numbers are the same if neither is a NaN and they are equal, zeros of either sign included
  (`same`);
* a quotient of naturals is rounded to the nearest number of a format, a tie to the even
  significand (`Format.round`), and every operation is its exact result rounded once (`ofRatio`).
-/

namespace SqlTree

/-- A binary floating-point number of 64 bits, given by its bit pattern. -/
structure Binary64 where
  bits : UInt64
  deriving DecidableEq

namespace Binary64

/-! ## 1. Fields -/

/-- The sign bit. -/
def negative (x : Binary64) : Bool := x.bits >>> 63 == 1

/-- The eleven exponent bits. -/
def exponentField (x : Binary64) : Nat := ((x.bits >>> 52) &&& 0x7FF).toNat

/-- The 52 fraction bits. -/
def fraction (x : Binary64) : Nat := (x.bits &&& 0xFFFFFFFFFFFFF).toNat

def isNaN (x : Binary64) : Bool := x.exponentField == 2047 && x.fraction != 0

def isInfinite (x : Binary64) : Bool := x.exponentField == 2047 && x.fraction == 0

def isZero (x : Binary64) : Bool := x.exponentField == 0 && x.fraction == 0

/-- The whole number that the power of two multiplies. -/
def significand (x : Binary64) : Nat :=
  if x.exponentField = 0 then x.fraction else Nat.pow 2 52 + x.fraction

/-- The power of two of the last fraction bit. -/
def scale (x : Binary64) : Int :=
  if x.exponentField = 0 then -1074 else (x.exponentField : Int) - 1075

/-- Equality of numbers: a NaN equals nothing, and the two zeros are equal. -/
def same (x y : Binary64) : Bool :=
  !x.isNaN && !y.isNaN && (x == y || (x.isZero && y.isZero))

/-- The sign bit and the other 63 bits put together. -/
def assemble (negative : Bool) (magnitude : Nat) : Binary64 :=
  ⟨UInt64.ofNat (magnitude + if negative then Nat.pow 2 63 else 0)⟩

def zero (negative : Bool) : Binary64 := assemble negative 0

def infinity (negative : Bool) : Binary64 := assemble negative (2047 * Nat.pow 2 52)

def nan : Binary64 := assemble false (2047 * Nat.pow 2 52 + Nat.pow 2 51)

end Binary64

/-! ## 2. Rounding -/

/-- A binary format: the bits of a significand and the powers of two that its last bit can have. -/
structure BinaryFormat where
  precision : Nat
  leastScale : Int
  greatestScale : Int

namespace BinaryFormat

def binary32 : BinaryFormat := ⟨24, -149, 104⟩

def binary64 : BinaryFormat := ⟨53, -1074, 971⟩

/-- A quotient rounded to the nearest whole number, a half to the even one. -/
def roundQuotient (num den : Nat) : Nat :=
  let quotient := num / den
  let twice := 2 * (num % den)
  if twice < den then quotient
  else if den < twice then quotient + 1
  else if quotient % 2 = 0 then quotient else quotient + 1

/-- `num / den` divided by a power of two, as a quotient again. -/
def shifted (num den : Nat) (scale : Int) : Nat × Nat :=
  (num * Nat.pow 2 (-scale).toNat, den * Nat.pow 2 scale.toNat)

/-- The scale at which `num / den` has as many bits as the format holds, or the least one. -/
def scaleFor (format : BinaryFormat) (num den : Nat) : Int :=
  let guess : Int := (num.log2 : Int) - den.log2 - format.precision
  let (n, d) := shifted num den guess
  max format.leastScale (if n / d < Nat.pow 2 format.precision then guess else guess + 1)

/-- The number `significand * 2 ^ scale` of the format that is nearest to `num / den`, a tie to
    the even significand; nothing if that lies above the format's greatest number. -/
def round (format : BinaryFormat) (num den : Nat) : Option (Nat × Int) :=
  if num = 0 then some (0, format.leastScale)
  else
    let scale := format.scaleFor num den
    let (n, d) := shifted num den scale
    let rounded := roundQuotient n d
    let (significand, scale) :=
      if rounded = Nat.pow 2 format.precision then (rounded / 2, scale + 1) else (rounded, scale)
    if format.greatestScale < scale then none else some (significand, scale)

end BinaryFormat

namespace Binary64

/-- A significand below `2 ^ 53` and its scale as bits. A significand below `2 ^ 52` stands at
    the least scale. -/
def ofScaled (negative : Bool) (significand : Nat) (scale : Int) : Binary64 :=
  if significand < Nat.pow 2 52 then assemble negative significand
  else assemble negative ((scale + 1075).toNat * Nat.pow 2 52 + (significand - Nat.pow 2 52))

/-- The number nearest to `num / den`, infinite if that is too large. -/
def ofRatio (negative : Bool) (num den : Nat) : Binary64 :=
  match BinaryFormat.binary64.round num den with
  | some (significand, scale) => ofScaled negative significand scale
  | none => infinity negative

/-- The number nearest to a whole number. -/
def ofNat (n : Nat) : Binary64 := ofRatio false n 1

/-- The magnitude of a finite number as a quotient. -/
def ratio (x : Binary64) : Nat × Nat :=
  (x.significand * Nat.pow 2 x.scale.toNat, Nat.pow 2 (-x.scale).toNat)

/-- The product of two magnitudes, rounded once. -/
def mul (x y : Binary64) : Binary64 :=
  ofRatio false (x.ratio.1 * y.ratio.1) (x.ratio.2 * y.ratio.2)

/-- The quotient of two magnitudes, rounded once. -/
def div (x y : Binary64) : Binary64 :=
  ofRatio false (x.ratio.1 * y.ratio.2) (x.ratio.2 * y.ratio.1)

/-- The opposite sign. -/
def neg (x : Binary64) : Binary64 := ⟨x.bits ^^^ 0x8000000000000000⟩

end Binary64
end SqlTree
