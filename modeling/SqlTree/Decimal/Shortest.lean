import SqlTree.Decimal.Binary64

/-!
# The fewest digits that read back

A finite number of 64 bits stands for all reals that round to it: an interval whose ends are half
way to its neighbours and belong to it if the significand is even. `shortest` finds the decimal in
that interval with the fewest digits and, of those, the one nearest to the number. It tries one
digit, two digits and so on; on each grid only the two neighbours of the number can lie inside.
-/

namespace SqlTree

/-- The number `digits * 10 ^ exponent`. -/
structure Decimal where
  digits : Nat
  exponent : Int
  deriving DecidableEq

/-- What to do when two decimals of the same length are equally near. -/
inductive Tie where
  | up
  | toEven
  deriving DecidableEq

namespace Decimal

/-! ## 1. Exact comparison -/

/-- Compares `a * 10 ^ i` with `b * 2 ^ j`. -/
def compareScaled (a : Nat) (i : Int) (b : Nat) (j : Int) : Ordering :=
  compare (a * Nat.pow 10 i.toNat * Nat.pow 2 (-j).toNat)
    (b * Nat.pow 2 j.toNat * Nat.pow 10 (-i).toNat)

/-- Whether the number below is only half as far away as the number above. -/
def narrowBelow (x : Binary64) : Bool := x.fraction == 0 && 1 < x.exponentField

/-- The decimal lies in the interval of reals that round to `x`. -/
def readsBack (x : Binary64) (d : Decimal) : Bool :=
  let low := if narrowBelow x then 4 * x.significand - 1 else 4 * x.significand - 2
  let high := 4 * x.significand + 2
  let closed := x.significand % 2 == 0
  let atLow := compareScaled d.digits d.exponent low (x.scale - 2)
  let atHigh := compareScaled d.digits d.exponent high (x.scale - 2)
  (atLow == .gt || (closed && atLow == .eq)) && (atHigh == .lt || (closed && atHigh == .eq))

/-! ## 2. The search -/

/-- The number of decimal digits of a whole number. -/
def digitCount (n : Nat) : Nat := (Nat.toDigits 10 n).length

/-- The exponent of the leading digit of a nonzero quotient. -/
def leadingExponent (num den : Nat) : Int :=
  if den ≤ num then (digitCount (num / den) : Int) - 1
  else
    let count := digitCount (den / num)
    if den ≤ num * Nat.pow 10 (count - 1) then -((count : Int) - 1) else -(count : Int)

/-- Two neighbours on a grid, of which at least one reads back: the nearer one. -/
def nearer (x : Binary64) (tie : Tie) (low high : Decimal) : Option Decimal :=
  match readsBack x low, readsBack x high with
  | false, false => none
  | true, false => some low
  | false, true => some high
  | true, true =>
    match compareScaled (low.digits + high.digits) low.exponent (2 * x.significand) x.scale with
    | .gt => some low
    | .lt => some high
    | .eq =>
      match tie with
      | .up => some high
      | .toEven => if low.digits % 2 = 0 then some low else some high

/-- The neighbours of `x` on the grid of a power of ten. -/
def onGrid (x : Binary64) (tie : Tie) (exponent : Int) : Option Decimal :=
  let (num, den) := x.ratio
  let below := num * Nat.pow 10 (-exponent).toNat / (den * Nat.pow 10 exponent.toNat)
  nearer x tie ⟨below, exponent⟩ ⟨below + 1, exponent⟩

/-- Trailing zeros moved into the exponent, at most `fuel` of them. -/
def stripped : Nat → Decimal → Decimal
  | 0, d => d
  | fuel + 1, d =>
    if d.digits ≠ 0 ∧ d.digits % 10 = 0 then stripped fuel ⟨d.digits / 10, d.exponent + 1⟩ else d

/-- The exact value of a finite number as a decimal. -/
def exact (x : Binary64) : Decimal :=
  if 0 ≤ x.scale then ⟨x.significand * Nat.pow 2 x.scale.toNat, 0⟩
  else ⟨x.significand * Nat.pow 5 (-x.scale).toNat, x.scale⟩

/-- The decimal with the fewest digits that reads back to a finite nonzero number, the nearest
    of those. Seventeen digits always suffice; the exact value closes the search. -/
def shortest (tie : Tie) (x : Binary64) : Decimal :=
  let (num, den) := x.ratio
  let leading := leadingExponent num den
  let found := (List.range 17).findSome? fun (more : Nat) => onGrid x tie (leading - more)
  let chosen := found.getD (exact x)
  stripped (digitCount chosen.digits) chosen

end Decimal
end SqlTree
