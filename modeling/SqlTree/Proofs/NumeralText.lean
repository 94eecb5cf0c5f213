import Mathlib.Data.List.TakeDrop
import SqlTree.Decimal.Numeral

/-!
# Digits in a text

A number is written by its decimal digits and read back from them, with anything behind them that is
no digit:

* `Numeral.spanDigits_append` -- the digits that a text begins with are all taken, and no more;
* `Numeral.digitsValue_toDigits` -- the digits of a number have its value;
* `toList_toString_int` -- a whole number is written as a minus sign or nothing and its digits.
-/

namespace SqlTree

namespace Numeral

/-! ## 1. Taking digits -/

/-- A text does not go on with a digit. -/
def Stops (rest : List Char) : Prop := ∀ c ∈ rest.head?, c.isDigit = false

theorem stops_nil : Stops [] := nofun

theorem stops_cons {c : Char} (h : c.isDigit = false) (rest : List Char) : Stops (c :: rest) := by
  intro d hd
  obtain rfl := Option.some.inj hd
  exact h

theorem isDigit_toDigits (n : Nat) : ∀ c ∈ Nat.toDigits 10 n, c.isDigit = true := fun _ hc =>
  Nat.isDigit_of_mem_toDigits (by decide) (by decide) hc

/-- **The digits that a text begins with are all taken, and no more.** -/
theorem spanDigits_append {digits rest : List Char} (h : ∀ c ∈ digits, c.isDigit = true)
    (hrest : Stops rest) : spanDigits (digits ++ rest) = (digits, rest) := by
  have hnone : rest.takeWhile Char.isDigit = [] ∧ rest.dropWhile Char.isDigit = rest := by
    cases rest with
    | nil => exact ⟨rfl, rfl⟩
    | cons c rest =>
      have hc : ¬ c.isDigit = true := by
        rw [hrest c rfl]
        exact Bool.false_ne_true
      exact ⟨List.takeWhile_cons_of_neg hc, List.dropWhile_cons_of_neg hc⟩
  rw [spanDigits, List.span_eq_takeWhile_dropWhile, List.takeWhile_append_of_pos h,
    List.dropWhile_append_of_pos h, hnone.1, hnone.2, List.append_nil]

/-! ## 2. The value of digits -/

theorem digitsValue_append (start : Nat) (l r : List Char) :
    digitsValue start (l ++ r) = digitsValue (digitsValue start l) r := List.foldl_append ..

/-- **The digits of a number have its value.** -/
theorem digitsValue_toDigits (n : Nat) : digitsValue 0 (Nat.toDigits 10 n) = n :=
  Nat.ofDigitChars_toDigits (by decide) (by decide)

end Numeral

/-! ## 3. Whole numbers -/

/-- A minus sign or nothing. -/
def Numeral.minus (negative : Bool) : List Char := if negative then ['-'] else []

theorem toList_toString_ofNat (n : Nat) : (toString (Int.ofNat n)).toList = Nat.toDigits 10 n :=
  Nat.toList_repr

theorem toList_toString_negSucc (n : Nat) :
    (toString (Int.negSucc n)).toList = '-' :: Nat.toDigits 10 (n + 1) := by
  show ("-" ++ Nat.repr (n + 1)).toList = _
  rw [String.toList_append, Nat.toList_repr]
  rfl

/-- **A whole number is written as a minus sign or nothing and its digits.** -/
theorem toList_toString_int (i : Int) :
    (toString i).toList = Numeral.minus (decide (i < 0)) ++ Nat.toDigits 10 i.natAbs := by
  cases i with
  | ofNat n => exact toList_toString_ofNat n
  | negSucc n =>
    rw [toList_toString_negSucc, decide_eq_true (Int.negSucc_lt_zero n)]
    rfl

end SqlTree
