import SqlTree.Proofs.NumeralText
import SqlTree.Proofs.ShortestDigits
import SqlTree.Value

/-!
# The text of a floating-point number is exact

A finite number is written by its shortest decimal, positionally or with an exponent. Read as a
numeral, either notation denotes that decimal, and the number nearest to it is the number itself:

* `Numeral.ofChars?_whole`, `Numeral.ofChars?_point` -- how digits with a point and an exponent are
  read;
* `NumberStyle.denotes_positional`, `Numeral.denotes_pointed` -- both notations denote the decimal;
* `NumberStyle.exponentText_decimal` -- which decimals are written with an exponent, and how;
* `Binary64.write_exact` -- the text of a number in SQL denotes what its exponent form denotes and
  reads back to the number, so that different numbers have different texts.
-/

namespace SqlTree

/-! ## 1. Reading a numeral -/

namespace Numeral

/-- A text of digits, and at least one. -/
structure Digits (s : List Char) : Prop where
  nonempty : s ≠ []
  digits : ∀ c ∈ s, c.isDigit = true

variable {s whole fraction tail : List Char} {negative : Bool} {exponent : ℤ}

theorem digits_toDigits (n : ℕ) : Digits (Nat.toDigits 10 n) :=
  ⟨Nat.toDigits_ne_nil, isDigit_toDigits n⟩

theorem digits_zero : Digits ['0'] := digits_toDigits 0

theorem isDigit_zeros (k : ℕ) : ∀ c ∈ List.replicate k '0', c.isDigit = true := by
  intro c hc
  rw [(List.mem_replicate.mp hc).2]
  rfl

namespace Digits

theorem append_right (h : Digits s) {t : List Char} (ht : ∀ c ∈ t, c.isDigit = true) :
    Digits (s ++ t) :=
  ⟨List.append_ne_nil_of_left_ne_nil h.nonempty t, List.forall_mem_append.mpr ⟨h.digits, ht⟩⟩

theorem append_left (h : Digits s) {t : List Char} (ht : ∀ c ∈ t, c.isDigit = true) :
    Digits (t ++ s) :=
  ⟨List.append_ne_nil_of_right_ne_nil t h.nonempty, List.forall_mem_append.mpr ⟨ht, h.digits⟩⟩

/-- Digits are no sign, whatever follows them. -/
theorem sign_append (h : Digits s) (rest : List Char) : sign (s ++ rest) = (false, s ++ rest) := by
  obtain ⟨c, more, rfl⟩ := List.exists_cons_of_ne_nil h.nonempty
  have hc : c.isDigit = true := h.digits c List.mem_cons_self
  have hminus : c ≠ '-' := by rintro rfl; cases hc
  have hplus : c ≠ '+' := by rintro rfl; cases hc
  simp [sign, hminus, hplus]

theorem sign_minus (h : Digits s) (negative : Bool) (rest : List Char) :
    sign (minus negative ++ (s ++ rest)) = (negative, s ++ rest) := by
  cases negative with
  | false => exact h.sign_append rest
  | true => rfl

end Digits

/-- What may stand behind the digits of a numeral: nothing, or a mark and an exponent. -/
inductive Tail : List Char → ℤ → Prop
  | none : Tail [] 0
  | mark {rest digits : List Char} {negative : Bool} (hsign : sign rest = (negative, digits))
      (h : Digits digits) :
      Tail ('e' :: rest) (if negative then -(digitsValue 0 digits) else digitsValue 0 digits)

namespace Tail

theorem stops (h : Tail tail exponent) : Stops tail := by
  cases h with
  | none => exact stops_nil
  | mark => exact stops_cons rfl _

theorem fractionPart_eq (h : Tail tail exponent) : fractionPart tail = ([], tail) := by
  cases h <;> rfl

theorem exponentPart_eq (h : Tail tail exponent) :
    exponentPart tail = some (exponent, []) := by
  cases h with
  | none => rfl
  | @mark rest digits negative hsign h =>
    have hspan : spanDigits digits = (digits, []) := by
      have h := spanDigits_append h.digits stops_nil
      rwa [List.append_nil] at h
    obtain ⟨c, more, rfl⟩ := List.exists_cons_of_ne_nil h.nonempty
    simp [exponentPart, hsign, hspan]

end Tail

/-- Digits without a point are read as they are. -/
theorem ofChars?_whole (hw : Digits whole) (ht : Tail tail exponent) (negative : Bool) :
    ofChars? (minus negative ++ (whole ++ tail))
      = some ⟨negative, digitsValue 0 whole, exponent⟩ := by
  have hspan := spanDigits_append hw.digits ht.stops
  simp [ofChars?, hw.sign_minus, hspan, ht.fractionPart_eq, ht.exponentPart_eq, hw.nonempty]

/-- Digits behind a point count as if there were none, and the exponent is less by their number. -/
theorem ofChars?_point (hw : Digits whole) (hf : Digits fraction) (ht : Tail tail exponent)
    (negative : Bool) :
    ofChars? (minus negative ++ (whole ++ '.' :: (fraction ++ tail)))
      = some ⟨negative, digitsValue 0 (whole ++ fraction), exponent - fraction.length⟩ := by
  have hspan := spanDigits_append hw.digits (stops_cons (c := '.') rfl (fraction ++ tail))
  have hpoint : fractionPart ('.' :: (fraction ++ tail)) = (fraction, tail) :=
    spanDigits_append hf.digits ht.stops
  simp [ofChars?, hw.sign_minus, hspan, hpoint, ht.exponentPart_eq, hw.nonempty]

/-! ## 2. Both notations denote the decimal -/

theorem digitsValue_replicate (n k : ℕ) :
    digitsValue n (List.replicate k '0') = n * 10 ^ k := by
  induction k generalizing n with
  | zero => exact (Nat.mul_one n).symm
  | succ k ih =>
    rw [List.replicate_succ]
    show digitsValue (10 * n + 0) _ = _
    rw [ih, pow_succ]
    ring

theorem digitsValue_zeros (k : ℕ) (s : List Char) :
    digitsValue 0 (List.replicate k '0' ++ s) = digitsValue 0 s := by
  rw [digitsValue_append, digitsValue_replicate, Nat.zero_mul]

/-- With either sign in front, the text is read as a numeral of that sign and of the decimal's
    value. -/
def Denotes (s : List Char) (d : Decimal) : Prop :=
  ∀ negative, ∃ n : Numeral, ofChars? (minus negative ++ s) = some n
    ∧ n.negative = negative ∧ n.magnitude = d.value

theorem Denotes.congr {d d' : Decimal} (h : Denotes s d) (hvalue : d.value = d'.value) :
    Denotes s d' := fun negative => hvalue ▸ h negative

theorem denotes_whole (h : Digits s) (ht : Tail tail exponent) :
    Denotes (s ++ tail) ⟨digitsValue 0 s, exponent⟩ := fun negative =>
  ⟨_, ofChars?_whole h ht negative, rfl, rfl⟩

theorem denotes_point (hw : Digits whole) (hf : Digits fraction) (ht : Tail tail exponent) :
    Denotes (whole ++ '.' :: (fraction ++ tail))
      ⟨digitsValue 0 (whole ++ fraction), exponent - fraction.length⟩ := fun negative =>
  ⟨_, ofChars?_point hw hf ht negative, rfl, rfl⟩

/-- A point behind the first digit, if there are more. -/
def pointed : List Char → List Char
  | first :: second :: more => first :: '.' :: second :: more
  | short => short

/-- **Digits with a point behind the first one and an exponent denote their decimal.** -/
theorem denotes_pointed (h : Digits s) (ht : Tail tail exponent) :
    Denotes (pointed s ++ tail) ⟨digitsValue 0 s, exponent + 1 - s.length⟩ := by
  obtain ⟨first, more, rfl⟩ := List.exists_cons_of_ne_nil h.nonempty
  cases more with
  | nil =>
    refine (denotes_whole h ht).congr ?_
    rw [List.length_singleton, Nat.cast_one, add_sub_cancel_right]
  | cons second more =>
    obtain ⟨hfirst, hmore⟩ := List.forall_mem_cons.mp h.digits
    refine (denotes_point ⟨List.cons_ne_nil first [], List.forall_mem_singleton.mpr hfirst⟩
      ⟨List.cons_ne_nil second more, hmore⟩ ht).congr ?_
    rw [List.length_cons (a := first), Nat.cast_succ, add_sub_add_right_eq_sub]
    rfl

/-- Zeros between the point and the digits make the exponent less. -/
theorem denotes_behind_zeros (h : Digits s) (k : ℕ) :
    Denotes ('0' :: '.' :: (List.replicate k '0' ++ s)) ⟨digitsValue 0 s, -(k + s.length)⟩ := by
  have hpoint := denotes_point digits_zero (h.append_left (isDigit_zeros k)) .none
  have hvalue : digitsValue 0 (['0'] ++ (List.replicate k '0' ++ s)) = digitsValue 0 s :=
    digitsValue_zeros k s
  rw [List.append_nil, hvalue, List.length_append, List.length_replicate, zero_sub] at hpoint
  exact_mod_cast hpoint

/-- Zeros behind the digits make it greater, whether the point is written or not. -/
theorem denotes_before_zeros (h : Digits s) (k : ℕ) (pointZero : Bool) :
    Denotes (s ++ List.replicate k '0' ++ if pointZero then ['.', '0'] else [])
      ⟨digitsValue 0 s, k⟩ := by
  have hwhole := h.append_right (isDigit_zeros k)
  cases pointZero with
  | false =>
    refine (denotes_whole hwhole .none).congr ?_
    rw [Decimal.value, Decimal.value, digitsValue_append, digitsValue_replicate, zpow_zero,
      zpow_natCast, mul_one]
    push_cast
    rfl
  | true =>
    refine (denotes_point hwhole digits_zero .none).congr ?_
    have hone : digitsValue (digitsValue 0 (s ++ List.replicate k '0')) ['0']
        = digitsValue 0 (s ++ List.replicate k '0') * 10 ^ 1 := digitsValue_replicate _ 1
    rw [Decimal.value, Decimal.value, digitsValue_append, hone, digitsValue_append,
      digitsValue_replicate, zpow_natCast]
    norm_num [mul_assoc]

end Numeral

open Numeral

/-- **Positional notation denotes the decimal.** -/
theorem NumberStyle.denotes_positional (style : NumberStyle) {digits : List Char}
    (h : Digits digits) (leading : ℤ) :
    Denotes (style.positional digits leading)
      ⟨digitsValue 0 digits, leading + 1 - digits.length⟩ := by
  unfold positional
  by_cases hleading : leading < 0
  · have hexponent : -(((-leading - 1).toNat : ℤ) + digits.length)
        = leading + 1 - digits.length := by omega
    rw [if_pos hleading, ← hexponent]
    exact denotes_behind_zeros h _
  · rw [if_neg hleading]
    dsimp only
    split
    · rename_i hshort
      have hexponent : ((leading.toNat + 1 - digits.length : ℕ) : ℤ)
          = leading + 1 - digits.length := by omega
      rw [← hexponent]
      exact denotes_before_zeros h _ style.pointZero
    · rename_i hlong
      -- the point stands among the digits
      have hsplit := List.take_append_drop (leading.toNat + 1) digits
      have hdigits := List.forall_mem_append.mp (hsplit.symm ▸ h.digits)
      have hdrop : (digits.drop (leading.toNat + 1)).length
          = digits.length - (leading.toNat + 1) := List.length_drop
      have hexponent : (0 : ℤ) - (digits.drop (leading.toNat + 1)).length
          = leading + 1 - digits.length := by omega
      have hpoint := denotes_point
        ⟨List.ne_nil_of_length_pos (by rw [List.length_take]; omega), hdigits.1⟩
        ⟨List.ne_nil_of_length_pos (by omega), hdigits.2⟩ .none
      rwa [List.append_nil, hsplit, hexponent] at hpoint

/-! ## 3. The exponent part -/

/-- What stands from the mark of the exponent on. -/
def exponentText (s : List Char) : List Char := s.dropWhile (· != 'e')

/-- A text of digits and points. -/
def Plain (s : List Char) : Prop := ∀ c ∈ s, c.isDigit = true ∨ c = '.'

namespace Plain

variable {s t : List Char}

theorem of_digits (h : ∀ c ∈ s, c.isDigit = true) : Plain s := fun c hc => .inl (h c hc)

theorem point : Plain ['.'] := fun _ hc => .inr (List.mem_singleton.mp hc)

theorem append (hs : Plain s) (ht : Plain t) : Plain (s ++ t) := List.forall_mem_append.mpr ⟨hs, ht⟩

/-- It has no mark of an exponent, with a sign in front or without. -/
theorem not_mark (h : Plain s) (negative : Bool) :
    ∀ c ∈ minus negative ++ s, (c != 'e') = true := by
  have hdigit : ∀ c : Char, c.isDigit = true → (c != 'e') = true := by
    intro c hc
    refine bne_iff_ne.mpr ?_
    rintro rfl
    cases hc
  refine List.forall_mem_append.mpr ⟨?_, fun c hc => (h c hc).elim (hdigit c) ?_⟩
  · cases negative with
    | false => exact nofun
    | true => exact List.forall_mem_singleton.mpr rfl
  · rintro rfl
    rfl

theorem exponentText_eq (h : Plain s) (negative : Bool) :
    exponentText (minus negative ++ s) = [] :=
  List.dropWhile_eq_nil_iff.mpr (h.not_mark negative)

theorem exponentText_mark (h : Plain s) (negative : Bool) (rest : List Char) :
    exponentText (minus negative ++ (s ++ 'e' :: rest)) = 'e' :: rest := by
  rw [exponentText, ← List.append_assoc, List.dropWhile_append_of_pos (h.not_mark negative)]
  exact List.dropWhile_cons_of_neg (by decide)

end Plain

theorem plain_pointed {s : List Char} (h : ∀ c ∈ s, c.isDigit = true) : Plain (pointed s) := by
  unfold pointed
  split
  · obtain ⟨hfirst, hmore⟩ := List.forall_mem_cons.mp h
    exact .append (.of_digits (List.forall_mem_singleton.mpr hfirst))
      (.append .point (.of_digits hmore))
  · exact .of_digits h

theorem NumberStyle.plain_positional (style : NumberStyle) {digits : List Char}
    (h : ∀ c ∈ digits, c.isDigit = true) (leading : ℤ) :
    Plain (style.positional digits leading) := by
  have hzero : Plain ['0'] := .of_digits digits_zero.digits
  unfold positional
  split
  · exact .append hzero (.append .point (.append (.of_digits (isDigit_zeros _)) (.of_digits h)))
  · dsimp only
    split
    · refine .append (.append (.of_digits h) (.of_digits (isDigit_zeros _))) ?_
      split
      · exact .append .point hzero
      · exact nofun
    · exact .append (.of_digits fun c hc => h c (List.mem_of_mem_take hc))
        (.append .point (.of_digits fun c hc => h c (List.mem_of_mem_drop hc)))

namespace Decimal

/-- The exponent of the leading digit. -/
def leading (d : Decimal) : ℤ := d.exponent + (Nat.toDigits 10 d.digits).length - 1

/-- The digits with a point behind the first one, and the exponent as a whole number. -/
def exponentForm (d : Decimal) : List Char :=
  pointed (Nat.toDigits 10 d.digits) ++ 'e' :: (toString d.leading).toList

/-- The decimal that its digits and the exponent of the first one make up. -/
theorem eq_of_leading (d : Decimal) :
    (⟨digitsValue 0 (Nat.toDigits 10 d.digits),
      d.leading + 1 - (Nat.toDigits 10 d.digits).length⟩ : Decimal) = d := by
  rw [digitsValue_toDigits, leading, sub_add_cancel, add_sub_cancel_right]

end Decimal

theorem signed_natAbs (i : ℤ) :
    (if decide (i < 0) then -(i.natAbs : ℤ) else (i.natAbs : ℤ)) = i := by
  by_cases hneg : i < 0
  · rw [if_pos (decide_eq_true hneg)]
    omega
  · rw [if_neg (by simpa using hneg)]
    omega

theorem tail_toString (i : ℤ) : Tail ('e' :: (toString i).toList) i := by
  have hdigits := digits_toDigits i.natAbs
  have hsign := hdigits.sign_minus (decide (i < 0)) []
  rw [List.append_nil, ← toList_toString_int] at hsign
  have htail := Tail.mark hsign hdigits
  rwa [digitsValue_toDigits, signed_natAbs] at htail

theorem digits_padded (width n : ℕ) : Digits (NumberStyle.padded width (Nat.toDigits 10 n)) :=
  (digits_toDigits n).append_left (isDigit_zeros _)

theorem tail_padded (width : ℕ) (i : ℤ) :
    Tail ('e' :: (if i < 0 then '-' else '+')
      :: NumberStyle.padded width (Nat.toDigits 10 i.natAbs)) i := by
  have hsign : sign ((if i < 0 then '-' else '+')
      :: NumberStyle.padded width (Nat.toDigits 10 i.natAbs))
        = (decide (i < 0), NumberStyle.padded width (Nat.toDigits 10 i.natAbs)) := by
    by_cases hneg : i < 0
    · rw [if_pos hneg, decide_eq_true hneg]
      rfl
    · rw [if_neg hneg, decide_eq_false hneg]
      rfl
  have htail := Tail.mark hsign (digits_padded width i.natAbs)
  rwa [NumberStyle.padded, digitsValue_zeros, digitsValue_toDigits, signed_natAbs] at htail

/-- **The exponent form denotes the decimal.** -/
theorem Decimal.denotes_exponentForm (d : Decimal) : Denotes d.exponentForm d := by
  have h := denotes_pointed (digits_toDigits d.digits) (tail_toString d.leading)
  rwa [d.eq_of_leading] at h

namespace NumberStyle

variable (style : NumberStyle)

theorem decimal_positional {d : Decimal}
    (h : style.plainFrom ≤ d.leading ∧ d.leading ≤ style.plainTo) :
    style.decimal d = style.positional (Nat.toDigits 10 d.digits) d.leading := if_pos h

theorem decimal_scientific {d : Decimal}
    (h : ¬(style.plainFrom ≤ d.leading ∧ d.leading ≤ style.plainTo)) :
    style.decimal d = pointed (Nat.toDigits 10 d.digits)
      ++ 'e' :: (if d.leading < 0 then '-' else '+')
        :: padded style.exponentWidth (Nat.toDigits 10 d.leading.natAbs) := if_neg h

/-- **A decimal is denoted by its text.** -/
theorem denotes_decimal (d : Decimal) : Denotes (style.decimal d) d := by
  have hdigits := digits_toDigits d.digits
  by_cases hplain : style.plainFrom ≤ d.leading ∧ d.leading ≤ style.plainTo
  · have h := style.denotes_positional hdigits d.leading
    rwa [d.eq_of_leading, ← style.decimal_positional hplain] at h
  · have h := denotes_pointed hdigits (tail_padded style.exponentWidth d.leading)
    rwa [d.eq_of_leading, ← style.decimal_scientific hplain] at h

/-- **A decimal has an exponent part outside the positional range**, a sign and padded digits. -/
theorem exponentText_decimal (d : Decimal) (negative : Bool) :
    exponentText (minus negative ++ style.decimal d)
      = if style.plainFrom ≤ d.leading ∧ d.leading ≤ style.plainTo then []
        else 'e' :: (if d.leading < 0 then '-' else '+')
          :: padded style.exponentWidth (Nat.toDigits 10 d.leading.natAbs) := by
  by_cases hplain : style.plainFrom ≤ d.leading ∧ d.leading ≤ style.plainTo
  · rw [if_pos hplain, style.decimal_positional hplain]
    exact (style.plain_positional (isDigit_toDigits _) _).exponentText_eq negative
  · rw [if_neg hplain, style.decimal_scientific hplain]
    exact (plain_pointed (isDigit_toDigits _)).exponentText_mark negative _

end NumberStyle

/-! ## 4. The text of a number -/

/-- The rational that a numeral denotes. -/
def Numeral.value (n : Numeral) : ℚ := if n.negative then -n.magnitude else n.magnitude

namespace Binary64

variable {x y : Binary64} {tie : Tie} {s : List Char}

/-- The decimal by which a finite number is written. -/
def decimal (tie : Tie) (x : Binary64) : Decimal :=
  if x.isZero then ⟨0, 0⟩ else Decimal.shortest tie x

/-- The text of a finite number that always has an exponent. -/
def exponentForm (x : Binary64) : List Char := minus x.negative ++ (x.decimal .up).exponentForm

theorem write_finite (style : NumberStyle) (hnan : x.isNaN = false) (hinf : x.isInfinite = false) :
    (style.write x).toList = minus x.negative ++ style.decimal (x.decimal style.tie) := by
  simp only [NumberStyle.write, hnan, hinf, Bool.false_eq_true, if_false, String.toList_ofList]
  rfl

/-- A text that denotes the decimal of a finite number reads back to it. -/
theorem exists_numeral (h : Denotes s (x.decimal tie)) (hnan : x.isNaN = false)
    (hinf : x.isInfinite = false) :
    ∃ n : Numeral, ofChars? (minus x.negative ++ s) = some n ∧ n.negative = x.negative
      ∧ n.magnitude = (x.decimal tie).value ∧ n.toBinary64 = x := by
  obtain ⟨n, hread, hsign, hvalue⟩ := h x.negative
  refine ⟨n, hread, hsign, hvalue, ?_⟩
  cases hzero : x.isZero with
  | true =>
    have hdecimal : x.decimal tie = ⟨0, 0⟩ := if_pos hzero
    refine toBinary64_zero ?_ hzero hsign
    rw [hvalue, hdecimal, Decimal.value, Nat.cast_zero, zero_mul]
  | false =>
    have hdecimal : x.decimal tie = Decimal.shortest tie x := if_neg (by rw [hzero]; decide)
    have hpos := significand_pos hzero
    refine toBinary64_eq ?_ (isFinite_iff.mp ⟨hnan, hinf⟩) hpos hsign
    rw [hvalue, hdecimal]
    exact Decimal.covers_shortest tie hpos

theorem readsBack_finite (hnan : x.isNaN = false) (hinf : x.isInfinite = false) :
    (ofChars? (sqlNumber.write x).toList).map Numeral.toBinary64 = some x := by
  obtain ⟨n, hread, -, -, hback⟩ := exists_numeral (sqlNumber.denotes_decimal _) hnan hinf
  rw [write_finite sqlNumber hnan hinf, hread, Option.map_some, hback]

/-- The words for the infinite numbers are no numerals and tell the sign. -/
theorem write_infinite (hnan : x.isNaN = false) (hinf : x.isInfinite = true) :
    sqlNumber.write x = (if x.negative then "-Inf" else "+Inf")
      ∧ (ofChars? (sqlNumber.write x).toList).map Numeral.toBinary64 = none := by
  have hwrite : sqlNumber.write x = if x.negative then "-Inf" else "+Inf" := by
    simp only [NumberStyle.write, hnan, hinf, Bool.false_eq_true, if_false, if_true]
    rfl
  refine ⟨hwrite, ?_⟩
  rw [hwrite]
  cases x.negative <;> rfl

theorem eq_infinity (hinf : x.isInfinite = true) : x = infinity x.negative := by
  obtain ⟨he, hf⟩ := Bool.and_eq_true_iff.mp hinf
  have hparts := x.assemble_fields
  rw [eq_of_beq he, eq_of_beq hf] at hparts
  exact hparts.symm

/-- Different numbers have different texts. -/
theorem write_injective (hx : x.isNaN = false) (hy : y.isNaN = false)
    (h : sqlNumber.write x = sqlNumber.write y) : x = y := by
  cases hxinf : x.isInfinite <;> cases hyinf : y.isInfinite
  · have hreadx := readsBack_finite hx hxinf
    rw [h, readsBack_finite hy hyinf] at hreadx
    exact (Option.some.inj hreadx).symm
  · have hreadx := readsBack_finite hx hxinf
    rw [h, (write_infinite hy hyinf).2] at hreadx
    exact nomatch hreadx
  · have hready := readsBack_finite hy hyinf
    rw [← h, (write_infinite hx hxinf).2] at hready
    exact nomatch hready
  · rw [(write_infinite hx hxinf).1, (write_infinite hy hyinf).1] at h
    have hsign : x.negative = y.negative := by
      cases hnx : x.negative <;> cases hny : y.negative <;> simp [hnx, hny] at h ⊢
    rw [eq_infinity hxinf, eq_infinity hyinf, hsign]

/-- What the text of a finite number keeps of the number. -/
structure Faithful (x : Binary64) (text : List Char) : Prop where
  /-- The text is a numeral that denotes the rational of the exponent form, with the same sign, and
      reads back to the number. -/
  denotes : ∃ n e : Numeral, ofChars? text = some n ∧ ofChars? x.exponentForm = some e
    ∧ n.value = e.value ∧ n.negative = e.negative ∧ n.toBinary64 = x ∧ e.toBinary64 = x
  /-- It has an exponent part exactly if the exponent of the other form is below -4 or above 5. -/
  marked : ∃ exponent : ℤ, exponentText x.exponentForm = 'e' :: (toString exponent).toList
    ∧ (exponentText text ≠ [] ↔ exponent < -4 ∨ 5 < exponent)
  /-- An exponent part is a mark, a sign and at least two digits. -/
  shape : exponentText text ≠ [] → ∃ sign digits, exponentText text = 'e' :: sign :: digits
    ∧ (sign = '+' ∨ sign = '-') ∧ (∀ c ∈ digits, c.isDigit = true) ∧ 2 ≤ digits.length

theorem faithful_write (hx : x.isNaN = false) (hinf : x.isInfinite = false) :
    x.Faithful (sqlNumber.write x).toList := by
  have htext : (sqlNumber.write x).toList = minus x.negative ++ sqlNumber.decimal (x.decimal .up) :=
    write_finite sqlNumber hx hinf
  rw [htext]
  have hpart : exponentText (minus x.negative ++ sqlNumber.decimal (x.decimal .up))
      = if -4 ≤ (x.decimal .up).leading ∧ (x.decimal .up).leading ≤ 5 then []
        else 'e' :: (if (x.decimal .up).leading < 0 then '-' else '+')
          :: NumberStyle.padded 2 (Nat.toDigits 10 (x.decimal .up).leading.natAbs) :=
    sqlNumber.exponentText_decimal (x.decimal .up) x.negative
  refine ⟨?_, ⟨(x.decimal .up).leading, ?_, ?_⟩, ?_⟩
  · obtain ⟨n, hn, hnsign, hnvalue, hnback⟩ :=
      exists_numeral (sqlNumber.denotes_decimal (x.decimal .up)) hx hinf
    obtain ⟨e, he, hesign, hevalue, heback⟩ :=
      exists_numeral (x.decimal .up).denotes_exponentForm hx hinf
    refine ⟨n, e, hn, he, ?_, hnsign.trans hesign.symm, hnback, heback⟩
    rw [Numeral.value, Numeral.value, hnsign, hesign, hnvalue, hevalue]
  · exact (plain_pointed (isDigit_toDigits _)).exponentText_mark x.negative _
  · rw [hpart]
    split
    · exact ⟨fun h => absurd rfl h, fun h => by omega⟩
    · exact ⟨fun _ => by omega, fun _ => List.cons_ne_nil _ _⟩
  · intro hne
    rw [hpart] at hne ⊢
    split at hne
    · exact absurd rfl hne
    · rename_i hrange
      rw [if_neg hrange]
      refine ⟨_, _, rfl, ?_, (digits_padded _ _).digits, ?_⟩
      · split
        · exact .inr rfl
        · exact .inl rfl
      · rw [NumberStyle.padded, List.length_append, List.length_replicate]
        omega

/-- **The text of a number in SQL is exact.** That of a finite number is faithful, and two numbers
    have the same text exactly if they have the same bits. -/
theorem write_exact (hx : x.isNaN = false) (hy : y.isNaN = false) :
    (x.isInfinite = false → x.Faithful (sqlNumber.write x).toList)
      ∧ (sqlNumber.write x = sqlNumber.write y ↔ x = y) :=
  ⟨faithful_write hx, write_injective hx hy, congrArg _⟩

/-- The number nearest to a hundred thousandth. -/
def hundredThousandth : Binary64 := ⟨0x3EE4F8B588E368F1⟩

theorem write_exact_hundredThousandth :
    sqlNumber.write hundredThousandth = "1e-05"
      ∧ hundredThousandth.Faithful "1e-05".toList
      ∧ (sqlNumber.write hundredThousandth = sqlNumber.write (zero true)
        ↔ hundredThousandth = zero true) := by
  have htext : sqlNumber.write hundredThousandth = "1e-05" := by decide +kernel
  obtain ⟨hfaithful, hsame⟩ :=
    write_exact (x := hundredThousandth) (y := zero true) (by decide) (by decide)
  have hfinite := hfaithful (by decide)
  rw [htext] at hfinite
  exact ⟨htext, hfinite, hsame⟩

end Binary64
end SqlTree
