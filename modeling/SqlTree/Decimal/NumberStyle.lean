import SqlTree.Decimal.Shortest

/-!
# How a number is laid out

`NumberStyle` holds every decision on the text of a floating-point number: which exponents are
written positionally, whether a whole number keeps `.0`, the least width of an exponent, the tie
between two shortest decimals, and the words for what is no number. `NumberStyle.write` lays out
the fewest digits that read back. An exponent always has its sign.
-/

namespace SqlTree

/-- The decisions on the text of a floating-point number. -/
structure NumberStyle where
  /-- The least exponent of the leading digit that is written positionally. -/
  plainFrom : Int
  /-- The greatest exponent of the leading digit that is written positionally. -/
  plainTo : Int
  /-- Whether a whole number written positionally ends in `.0`. -/
  pointZero : Bool
  /-- The least number of exponent digits. -/
  exponentWidth : Nat
  /-- Which of two equally near shortest decimals is taken. -/
  tie : Tie
  nan : String
  infinity : String
  negativeInfinity : String

namespace NumberStyle

/-- Zeros in front of a text up to a width. -/
def padded (width : Nat) (digits : List Char) : List Char :=
  List.replicate (width - digits.length) '0' ++ digits

/-- Positional notation of digits whose first has the given exponent. -/
def positional (style : NumberStyle) (digits : List Char) (leading : Int) : List Char :=
  if leading < 0 then '0' :: '.' :: (List.replicate (-leading - 1).toNat '0' ++ digits)
  else
    let whole := leading.toNat + 1
    if digits.length ≤ whole then
      digits ++ List.replicate (whole - digits.length) '0'
        ++ (if style.pointZero then ['.', '0'] else [])
    else digits.take whole ++ '.' :: digits.drop whole

/-- One digit, the others behind a point, and the exponent. -/
def scientific (style : NumberStyle) (digits : List Char) (leading : Int) : List Char :=
  let mantissa :=
    match digits with
    | first :: second :: more => first :: '.' :: second :: more
    | short => short
  mantissa ++ 'e' :: (if leading < 0 then '-' else '+')
    :: padded style.exponentWidth (Nat.toDigits 10 leading.natAbs)

/-- A decimal in the notation that its leading exponent asks for. -/
def decimal (style : NumberStyle) (d : Decimal) : List Char :=
  let digits := Nat.toDigits 10 d.digits
  let leading := d.exponent + digits.length - 1
  if style.plainFrom ≤ leading ∧ leading ≤ style.plainTo then style.positional digits leading
  else style.scientific digits leading

/-- The text of a floating-point number. -/
def write (style : NumberStyle) (x : Binary64) : String :=
  if x.isNaN then style.nan
  else if x.isInfinite then (if x.negative then style.negativeInfinity else style.infinity)
  else
    let magnitude := if x.isZero then ⟨0, 0⟩ else Decimal.shortest style.tie x
    let sign := if x.negative then ['-'] else []
    String.ofList (sign ++ style.decimal magnitude)

end NumberStyle
end SqlTree
