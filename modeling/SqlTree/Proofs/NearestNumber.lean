import Mathlib
import SqlTree.Decimal.Numeral
import SqlTree.Decimal.Shortest

/-!
# The nearest floating-point number

A finite number of 64 bits stands for an interval of rationals. This file says that rounding a
quotient leads back to the number in whose interval it lies:

* `BinaryFormat.scaleFor_eq` -- the scale of a quotient is the only one that gives it as many bits
  as the format holds;
* `BinaryFormat.roundQuotient_eq` -- the nearest whole number, a half going to the even one;
* `Binary64.assemble_fields` -- a number is made of its sign and its other bits;
* `Binary64.Covers` -- the rationals that a number stands for;
* `Binary64.Covers.ofRatio_eq` -- the number nearest to such a rational is that number;
* `Numeral.toBinary64_eq` -- so is the number that a numeral of such a magnitude is read as.
-/

namespace SqlTree

/-! ## 1. Powers with whole exponents -/

theorem pow_toNat {b : ℚ} (hb : b ≠ 0) (i : ℤ) : b ^ i.toNat = b ^ i * b ^ (-i).toNat := by
  obtain ⟨n, rfl | rfl⟩ := i.eq_nat_or_neg
  · simp
  · simp [hb]

/-! ## 2. Scales and rounding -/

namespace BinaryFormat

variable {num den n d k : ℕ}

/-- A shifted quotient is the quotient divided by the power of two. -/
theorem shifted_div (num den : ℕ) (scale : ℤ) :
    ((shifted num den scale).1 : ℚ) / (shifted num den scale).2 = num / den / 2 ^ scale := by
  have hpow := pow_toNat (b := 2) (by norm_num) scale
  have hone : (2 : ℚ) ^ (-scale).toNat ≠ 0 := by positivity
  have hscale : (2 : ℚ) ^ scale ≠ 0 := by positivity
  simp only [shifted, Nat.pow_eq, Nat.cast_mul, Nat.cast_pow, Nat.cast_ofNat]
  rw [hpow]
  field_simp

theorem shifted_pos (num : ℕ) (hden : 0 < den) (scale : ℤ) : 0 < (shifted num den scale).2 :=
  Nat.mul_pos hden (Nat.pow_pos (by decide))

/-- **The nearest whole number is found**, a half going to the even one. -/
theorem roundQuotient_eq (hd : 0 < d) (hlow : (k : ℚ) - 1 / 2 ≤ n / d)
    (hhigh : (n : ℚ) / d ≤ k + 1 / 2)
    (heven : (n : ℚ) / d = k - 1 / 2 ∨ (n : ℚ) / d = k + 1 / 2 → k % 2 = 0) :
    roundQuotient n d = k := by
  have hd' : (0 : ℚ) < d := Nat.cast_pos.mpr hd
  have hbelow : 2 * (k * d) ≤ 2 * n + d := by
    have h := (le_div_iff₀ hd').mp hlow
    have hcast : (2 * (k * d) : ℚ) ≤ 2 * n + d := by linarith
    exact_mod_cast hcast
  have habove : 2 * n ≤ 2 * (k * d) + d := by
    have h := (div_le_iff₀ hd').mp hhigh
    have hcast : (2 * n : ℚ) ≤ 2 * (k * d) + d := by linarith
    exact_mod_cast hcast
  have heven' : 2 * (k * d) = 2 * n + d ∨ 2 * n = 2 * (k * d) + d → k % 2 = 0 := by
    rintro (h | h)
    · have hcast : (2 * (k * d) : ℚ) = 2 * n + d := by exact_mod_cast h
      exact heven (.inl ((div_eq_iff hd'.ne').mpr (by linarith)))
    · have hcast : (2 * n : ℚ) = 2 * (k * d) + d := by exact_mod_cast h
      exact heven (.inr ((div_eq_iff hd'.ne').mpr (by linarith)))
  have hsplit : d * (n / d) + n % d = n := Nat.div_add_mod n d
  have hrest : n % d < d := Nat.mod_lt n hd
  have hmul : d * (n / d) = n / d * d := Nat.mul_comm _ _
  -- only the quotient and its successor are near enough
  have hk : k = n / d ∨ k = n / d + 1 := by
    have hle : k < n / d + 2 := by
      refine Nat.lt_of_mul_lt_mul_right (a := d) ?_
      rw [Nat.add_mul]
      omega
    have hge : n / d < k + 1 := by
      refine Nat.lt_of_mul_lt_mul_right (a := d) ?_
      rw [Nat.add_mul]
      omega
    omega
  unfold roundQuotient
  dsimp only
  rcases hk with hk | hk
  · rw [hk] at hbelow habove heven' ⊢
    split_ifs <;> omega
  · rw [hk, Nat.add_mul] at hbelow habove heven'
    rw [hk]
    split_ifs <;> omega

/-- The logarithms of two numbers tell the power of two next to their quotient, up to one. -/
theorem two_zpow_lt_div (hnum : 0 < num) (hden : 0 < den) :
    (2 : ℚ) ^ ((num.log2 : ℤ) - den.log2 - 1) < num / den := by
  have hpow : (2 : ℚ) ^ ((num.log2 : ℤ) - den.log2 - 1) = 2 ^ num.log2 / 2 ^ (den.log2 + 1) := by
    rw [sub_sub, zpow_sub₀ (by norm_num), zpow_natCast]
    norm_cast
  rw [hpow, div_lt_div_iff₀ (by positivity) (Nat.cast_pos.mpr hden)]
  have hnat : 2 ^ num.log2 * den < num * 2 ^ (den.log2 + 1) :=
    Nat.mul_lt_mul_of_le_of_lt (Nat.log2_self_le hnum.ne') Nat.lt_log2_self hnum
  exact_mod_cast hnat

theorem div_lt_two_zpow (num : ℕ) (hden : 0 < den) :
    (num : ℚ) / den < 2 ^ ((num.log2 : ℤ) - den.log2 + 1) := by
  have hpow : (2 : ℚ) ^ ((num.log2 : ℤ) - den.log2 + 1) = 2 ^ (num.log2 + 1) / 2 ^ den.log2 := by
    rw [sub_add_eq_add_sub, zpow_sub₀ (by norm_num), zpow_natCast]
    norm_cast
  rw [hpow, div_lt_div_iff₀ (Nat.cast_pos.mpr hden) (by positivity)]
  have hnat : num * 2 ^ den.log2 < 2 ^ (num.log2 + 1) * den :=
    Nat.mul_lt_mul_of_lt_of_le Nat.lt_log2_self (Nat.log2_self_le hden.ne') hden
  exact_mod_cast hnat

theorem shifted_floor_lt_iff (num : ℕ) (hden : 0 < den) (scale : ℤ) (p : ℕ) :
    (shifted num den scale).1 / (shifted num den scale).2 < Nat.pow 2 p
      ↔ (num : ℚ) / den < 2 ^ (scale + p) := by
  have hpos := shifted_pos num hden scale
  have hcast : ((shifted num den scale).1 : ℚ) / (shifted num den scale).2 < 2 ^ p
      ↔ (shifted num den scale).1 < Nat.pow 2 p * (shifted num den scale).2 := by
    rw [div_lt_iff₀ (Nat.cast_pos.mpr hpos)]
    exact_mod_cast Iff.rfl
  rw [Nat.div_lt_iff_lt_mul hpos, ← hcast, shifted_div, div_lt_iff₀ (by positivity), add_comm,
    zpow_add₀ (by norm_num), zpow_natCast]

/-- The scale of a quotient is at least the least one and gives it as many bits as the format
    holds, unless it is the least one. -/
theorem scaleFor_spec (format : BinaryFormat) (hnum : 0 < num) (hden : 0 < den) :
    format.leastScale ≤ format.scaleFor num den
      ∧ (num : ℚ) / den < 2 ^ (format.scaleFor num den + format.precision)
      ∧ (format.scaleFor num den = format.leastScale
        ∨ 2 ^ (format.scaleFor num den + format.precision - 1) ≤ (num : ℚ) / den) := by
  have hlow := two_zpow_lt_div hnum hden
  have hhigh := div_lt_two_zpow num hden
  -- the scale before it is raised to the least one
  obtain ⟨free, hfree, hbelow, habove⟩ : ∃ free : ℤ,
      format.scaleFor num den = max format.leastScale free
        ∧ (num : ℚ) / den < 2 ^ (free + format.precision)
        ∧ 2 ^ (free + format.precision - 1) ≤ (num : ℚ) / den := by
    have hfloor := shifted_floor_lt_iff num hden
      ((num.log2 : ℤ) - den.log2 - format.precision) format.precision
    have hscale : format.scaleFor num den = max format.leastScale
        (if (shifted num den ((num.log2 : ℤ) - den.log2 - format.precision)).1
          / (shifted num den ((num.log2 : ℤ) - den.log2 - format.precision)).2
            < Nat.pow 2 format.precision
        then (num.log2 : ℤ) - den.log2 - format.precision
        else (num.log2 : ℤ) - den.log2 - format.precision + 1) := rfl
    rw [sub_add_cancel] at hfloor
    by_cases hsmall : (num : ℚ) / den < 2 ^ ((num.log2 : ℤ) - den.log2)
    · rw [if_pos (hfloor.mpr hsmall)] at hscale
      refine ⟨_, hscale, ?_, ?_⟩
      · rw [sub_add_cancel]
        exact hsmall
      · rw [sub_add_cancel]
        exact hlow.le
    · rw [if_neg (mt hfloor.mp hsmall)] at hscale
      refine ⟨_, hscale, ?_, ?_⟩
      · rw [add_right_comm, sub_add_cancel]
        exact hhigh
      · rw [add_right_comm, sub_add_cancel, add_sub_cancel_right]
        exact not_lt.mp hsmall
  rw [hfree]
  refine ⟨le_max_left _ _, hbelow.trans_le ?_, ?_⟩
  · exact zpow_le_zpow_right₀ (by norm_num) (by omega)
  · rcases le_total free format.leastScale with hle | hle
    · exact .inl (max_eq_left hle)
    · rw [max_eq_right hle]
      exact .inr habove

/-- **No other scale does**, so the scale of a quotient is told by its size. -/
theorem scaleFor_eq (format : BinaryFormat) (hnum : 0 < num) (hden : 0 < den) {scale : ℤ}
    (hleast : format.leastScale ≤ scale) (hbelow : (num : ℚ) / den < 2 ^ (scale + format.precision))
    (habove : scale = format.leastScale
      ∨ 2 ^ (scale + format.precision - 1) ≤ (num : ℚ) / den) :
    format.scaleFor num den = scale := by
  obtain ⟨hleast', hbelow', habove'⟩ := scaleFor_spec format hnum hden
  have horder : ∀ i j : ℤ, (2 : ℚ) ^ (i + format.precision - 1) ≤ num / den →
      (num : ℚ) / den < 2 ^ (j + format.precision) → i ≤ j := by
    intro i j hi hj
    have hlt := (zpow_lt_zpow_iff_right₀ (by norm_num : (1 : ℚ) < 2)).mp (hi.trans_lt hj)
    omega
  refine le_antisymm ?_ ?_
  · rcases habove' with h | h
    · rw [h]
      exact hleast
    · exact horder _ _ h hbelow
  · rcases habove with h | h
    · rw [h]
      exact hleast'
    · exact horder _ _ h hbelow'

theorem round_of_ne (format : BinaryFormat) (hnum : num ≠ 0) {scale : ℤ}
    (hscale : format.scaleFor num den = scale) (hgreatest : scale ≤ format.greatestScale)
    (hk : roundQuotient (shifted num den scale).1 (shifted num den scale).2 = k)
    (hne : k ≠ Nat.pow 2 format.precision) : format.round num den = some (k, scale) := by
  simp only [round, if_neg hnum, hscale, hk, if_neg hne, if_neg (not_lt.mpr hgreatest)]

/-- A significand with one bit too many is a power of two and moves up by one scale. -/
theorem round_of_eq (format : BinaryFormat) (hnum : num ≠ 0) {scale : ℤ}
    (hscale : format.scaleFor num den = scale) (hgreatest : scale + 1 ≤ format.greatestScale)
    (hk : roundQuotient (shifted num den scale).1 (shifted num den scale).2
      = Nat.pow 2 format.precision) :
    format.round num den = some (Nat.pow 2 format.precision / 2, scale + 1) := by
  simp only [round, if_neg hnum, hscale, hk, if_true, if_neg (not_lt.mpr hgreatest)]

end BinaryFormat

namespace Binary64

/-! ## 3. Fields -/

section Fields

variable (x : Binary64)

theorem fraction_eq : x.fraction = x.bits.toNat % 2 ^ 52 := by
  rw [fraction, UInt64.toNat_and]
  exact Nat.and_two_pow_sub_one_eq_mod x.bits.toNat 52

theorem exponentField_eq : x.exponentField = x.bits.toNat / 2 ^ 52 % 2 ^ 11 := by
  rw [exponentField, UInt64.toNat_and, UInt64.toNat_shiftRight, ← Nat.shiftRight_eq_div_pow]
  exact Nat.and_two_pow_sub_one_eq_mod _ 11

theorem negative_eq : x.negative = decide (2 ^ 63 ≤ x.bits.toNat) := by
  have hlt : x.bits.toNat < 2 ^ 64 := x.bits.toNat_lt
  have hshift : (x.bits >>> 63).toNat = x.bits.toNat / 2 ^ 63 := by
    rw [UInt64.toNat_shiftRight, ← Nat.shiftRight_eq_div_pow]
    rfl
  have hone : x.bits >>> 63 = 1 ↔ 2 ^ 63 ≤ x.bits.toNat := by
    rw [← UInt64.toNat_inj, hshift]
    show _ = 1 ↔ _
    omega
  rw [negative, Bool.eq_iff_iff, beq_iff_eq, hone, decide_eq_true_eq]

theorem fraction_lt : x.fraction < 2 ^ 52 := by
  rw [fraction_eq]
  exact Nat.mod_lt _ (by decide)

theorem exponentField_lt : x.exponentField < 2048 := by
  rw [exponentField_eq]
  exact Nat.mod_lt _ (by decide)

/-- **A number is made of its sign and its other bits.** -/
theorem assemble_fields :
    assemble x.negative (x.exponentField * Nat.pow 2 52 + x.fraction) = x := by
  have hlt : x.bits.toNat < 2 ^ 64 := x.bits.toNat_lt
  have hbits : x.exponentField * Nat.pow 2 52 + x.fraction
      + (if x.negative then Nat.pow 2 63 else 0) = x.bits.toNat := by
    rw [fraction_eq, exponentField_eq, negative_eq]
    simp only [Nat.pow_eq, decide_eq_true_eq]
    split <;> omega
  rw [assemble, hbits, UInt64.ofNat_toNat]

end Fields

variable {x : Binary64}

theorem isFinite_iff : x.isNaN = false ∧ x.isInfinite = false ↔ x.exponentField ≠ 2047 := by
  unfold isNaN isInfinite
  by_cases he : x.exponentField = 2047 <;> by_cases hf : x.fraction = 0 <;> simp [he, hf]

/-- The significand and the scale by cases on the exponent bits. -/
theorem significand_cases (x : Binary64) :
    (x.exponentField = 0 ∧ x.significand = x.fraction ∧ x.scale = -1074)
      ∨ (x.exponentField ≠ 0 ∧ x.significand = 2 ^ 52 + x.fraction
        ∧ x.scale = x.exponentField - 1075) := by
  unfold significand scale
  by_cases he : x.exponentField = 0
  · exact .inl ⟨he, if_pos he, if_pos he⟩
  · exact .inr ⟨he, if_neg he, if_neg he⟩

theorem significand_lt (x : Binary64) : x.significand < 2 ^ 53 := by
  have := x.fraction_lt
  obtain ⟨-, hm, -⟩ | ⟨-, hm, -⟩ := x.significand_cases <;> omega

theorem le_scale (x : Binary64) : -1074 ≤ x.scale := by
  obtain ⟨-, -, hs⟩ | ⟨he, -, hs⟩ := x.significand_cases <;> omega

theorem scale_le (hx : x.exponentField ≠ 2047) : x.scale ≤ 971 := by
  have := x.exponentField_lt
  obtain ⟨-, -, hs⟩ | ⟨-, -, hs⟩ := x.significand_cases <;> omega

/-- A number with a greater scale than the least one has all its bits. -/
theorem le_significand (h : -1074 < x.scale) : 2 ^ 52 ≤ x.significand := by
  obtain ⟨-, -, hs⟩ | ⟨-, hm, -⟩ := x.significand_cases <;> omega

/-- A significand and its scale are a number again. -/
theorem ofScaled_self (x : Binary64) : ofScaled x.negative x.significand x.scale = x := by
  have hlt := x.fraction_lt
  have hparts := x.assemble_fields
  simp only [ofScaled, Nat.pow_eq] at hparts ⊢
  obtain ⟨he, hm, -⟩ | ⟨he, hm, hs⟩ := x.significand_cases
  · rw [he, Nat.zero_mul, Nat.zero_add] at hparts
    rw [if_pos (hm.trans_lt hlt), hm, hparts]
  · have hexp : (x.scale + 1075).toNat = x.exponentField := by omega
    have hfraction : x.significand - 2 ^ 52 = x.fraction := by omega
    rw [if_neg (by omega), hexp, hfraction, hparts]

theorem significand_pos (hzero : x.isZero = false) : 0 < x.significand := by
  refine Nat.pos_of_ne_zero fun hm => ?_
  obtain ⟨he, hm', -⟩ | ⟨-, hm', -⟩ := x.significand_cases
  · simp [isZero, he, ← hm', hm] at hzero
  · omega

/-! ## 4. The rationals of a number -/

/-- How far below a number the rationals still belong to it, in units of its last bit. -/
def margin (x : Binary64) : ℚ := if Decimal.narrowBelow x then 1 / 4 else 1 / 2

/-- The rationals that a number stands for: no farther away than half the way to its neighbours,
    and half the way only if its significand is even. -/
structure Covers (x : Binary64) (v : ℚ) : Prop where
  low : x.significand - x.margin ≤ v / 2 ^ x.scale
  high : v / 2 ^ x.scale ≤ x.significand + 1 / 2
  even : v / 2 ^ x.scale = x.significand - x.margin ∨ v / 2 ^ x.scale = x.significand + 1 / 2 →
    x.significand % 2 = 0

theorem margin_pos (x : Binary64) : 0 < x.margin := by
  unfold margin
  split <;> norm_num

theorem margin_le (x : Binary64) : x.margin ≤ 1 / 2 := by
  unfold margin
  split <;> norm_num

/-- The number below is only half as far away from a power of two above the least scale. -/
theorem narrowBelow_iff : Decimal.narrowBelow x ↔ x.significand = 2 ^ 52 ∧ -1074 < x.scale := by
  have := x.fraction_lt
  unfold Decimal.narrowBelow
  rw [Bool.and_eq_true, beq_iff_eq, decide_eq_true_eq]
  obtain ⟨he, hm, hs⟩ | ⟨he, hm, hs⟩ := x.significand_cases <;> omega

/-- A number stands for its own value. -/
theorem covers_self (x : Binary64) : x.Covers (x.significand * 2 ^ x.scale) := by
  have hself : (x.significand * 2 ^ x.scale : ℚ) / 2 ^ x.scale = x.significand :=
    mul_div_cancel_right₀ _ (by positivity)
  have hmargin := x.margin_pos
  refine ⟨?_, ?_, ?_⟩ <;> rw [hself]
  · linarith
  · linarith
  · rintro (h | h) <;> linarith

/-! ## 5. Rounding leads back -/

section Ratio

variable {v : ℚ} {num den : ℕ}

theorem Covers.pos (h : x.Covers v) (hx : 0 < x.significand) : 0 < v := by
  have hm : (1 : ℚ) ≤ x.significand := by exact_mod_cast hx
  have hunit : (0 : ℚ) < 2 ^ x.scale := by positivity
  have hv : 0 < v / 2 ^ x.scale := by linarith [h.low, x.margin_le]
  exact (div_pos_iff_of_pos_right hunit).mp hv

/-- At the scale of a number, the nearest whole number is its significand. -/
theorem Covers.round_of_le (h : x.Covers (num / den)) (hnum : 0 < num) (hden : 0 < den)
    (hx : x.exponentField ≠ 2047)
    (hfull : x.scale = -1074 ∨ 2 ^ 52 ≤ (num : ℚ) / den / 2 ^ x.scale) :
    BinaryFormat.binary64.round num den = some (x.significand, x.scale) := by
  have hunit : (0 : ℚ) < 2 ^ x.scale := by positivity
  have hm : x.significand < 2 ^ 53 := x.significand_lt
  have hm' : (x.significand : ℚ) + 1 ≤ 2 ^ 53 := by exact_mod_cast hm
  have hscale : BinaryFormat.binary64.scaleFor num den = x.scale := by
    refine BinaryFormat.scaleFor_eq _ hnum hden x.le_scale ?_ (hfull.imp_right fun hle => ?_)
    · show _ < 2 ^ (x.scale + (53 : ℕ))
      rw [zpow_add₀ (by norm_num), mul_comm, ← div_lt_iff₀ hunit, zpow_natCast]
      linarith [h.high]
    · show 2 ^ (x.scale + (53 : ℕ) - 1) ≤ _
      rw [add_sub_assoc, zpow_add₀ (by norm_num), mul_comm, ← le_div_iff₀ hunit]
      exact hle
  refine BinaryFormat.round_of_ne _ hnum.ne' hscale (scale_le hx) ?_ (ne_of_lt hm)
  have hquotient := BinaryFormat.shifted_div num den x.scale
  refine BinaryFormat.roundQuotient_eq (BinaryFormat.shifted_pos num hden _) ?_ ?_ ?_
  · rw [hquotient]
    linarith [h.low, x.margin_le]
  · rw [hquotient]
    exact h.high
  · rw [hquotient]
    rintro (hlow | hhigh)
    · exact h.even (.inl (le_antisymm (by linarith [x.margin_le]) h.low))
    · exact h.even (.inr hhigh)

/-- Just below a power of two, rounding takes one scale less and comes back up. -/
theorem Covers.round_of_lt (h : x.Covers (num / den)) (hnum : 0 < num) (hden : 0 < den)
    (hx : x.exponentField ≠ 2047) (hleast : -1074 < x.scale)
    (hbelow : (num : ℚ) / den / 2 ^ x.scale < 2 ^ 52) :
    BinaryFormat.binary64.round num den = some (x.significand, x.scale) := by
  have hunit : (0 : ℚ) < 2 ^ (x.scale - 1) := by positivity
  have hdouble : (num : ℚ) / den / 2 ^ (x.scale - 1) = 2 * ((num : ℚ) / den / 2 ^ x.scale) := by
    rw [zpow_sub_one₀ (by norm_num)]
    field_simp
  have hm : x.significand = 2 ^ 52 := by
    have hge := le_significand hleast
    have hlt : (x.significand : ℚ) < 2 ^ 52 + 1 := by linarith [h.low, x.margin_le]
    have hlt' : x.significand < 2 ^ 52 + 1 := by exact_mod_cast hlt
    omega
  have hmargin : x.margin = 1 / 4 := if_pos (narrowBelow_iff.mpr ⟨hm, hleast⟩)
  have hlow : (2 : ℚ) ^ 52 - 1 / 4 ≤ (num : ℚ) / den / 2 ^ x.scale := by
    have := h.low
    rw [hm, hmargin] at this
    exact_mod_cast this
  have hscale : BinaryFormat.binary64.scaleFor num den = x.scale - 1 := by
    refine BinaryFormat.scaleFor_eq _ hnum hden (Int.le_sub_one_of_lt hleast) ?_ (.inr ?_)
    · show _ < 2 ^ (x.scale - 1 + (53 : ℕ))
      rw [zpow_add₀ (by norm_num), mul_comm, ← div_lt_iff₀ hunit, zpow_natCast]
      linarith
    · show 2 ^ (x.scale - 1 + (53 : ℕ) - 1) ≤ _
      rw [add_sub_assoc, zpow_add₀ (by norm_num), mul_comm, ← le_div_iff₀ hunit]
      refine le_trans (b := (2 : ℚ) ^ 52) (le_of_eq (by norm_num)) ?_
      linarith
  have hround : BinaryFormat.roundQuotient (BinaryFormat.shifted num den (x.scale - 1)).1
      (BinaryFormat.shifted num den (x.scale - 1)).2 = Nat.pow 2 53 := by
    have hquotient := BinaryFormat.shifted_div num den (x.scale - 1)
    have hpow : ((Nat.pow 2 53 : ℕ) : ℚ) = 2 ^ 53 := by norm_num
    refine BinaryFormat.roundQuotient_eq (BinaryFormat.shifted_pos num hden _) ?_ ?_ ?_
    · rw [hquotient, hdouble, hpow]
      linarith
    · rw [hquotient, hdouble, hpow]
      linarith
    · exact fun _ => rfl
  have hsome := BinaryFormat.round_of_eq BinaryFormat.binary64 hnum.ne' hscale
    (show x.scale - 1 + 1 ≤ 971 by rw [sub_add_cancel]; exact scale_le hx) hround
  rw [hsome, hm, sub_add_cancel]
  rfl

/-- **The number nearest to a rational that a number stands for is that number.** -/
theorem Covers.ofRatio_eq (h : x.Covers (num / den)) (hden : 0 < den) (hx : x.exponentField ≠ 2047)
    (hpos : 0 < x.significand) : ofRatio x.negative num den = x := by
  have hnum : 0 < num := by
    have hv := h.pos hpos
    exact_mod_cast (div_pos_iff_of_pos_right (Nat.cast_pos.mpr hden)).mp hv
  have hround : BinaryFormat.binary64.round num den = some (x.significand, x.scale) := by
    by_cases hfull : x.scale = -1074 ∨ 2 ^ 52 ≤ (num : ℚ) / den / 2 ^ x.scale
    · exact h.round_of_le hnum hden hx hfull
    · obtain ⟨hleast, hbelow⟩ := not_or.mp hfull
      exact h.round_of_lt hnum hden hx (lt_of_le_of_ne x.le_scale (Ne.symm hleast))
        (not_le.mp hbelow)
  rw [ofRatio, hround]
  exact x.ofScaled_self

end Ratio

end Binary64

/-! ## 6. Numerals -/

namespace Numeral

variable {n : Numeral} {x : Binary64}

/-- The magnitude of a numeral. -/
def magnitude (n : Numeral) : ℚ := n.coefficient * 10 ^ n.exponent

theorem ratio_div (n : Numeral) : (n.ratio.1 : ℚ) / n.ratio.2 = n.magnitude := by
  have hpow := pow_toNat (b := 10) (by norm_num) n.exponent
  have hone : (10 : ℚ) ^ (-n.exponent).toNat ≠ 0 := by positivity
  simp only [ratio, magnitude, Nat.pow_eq, Nat.cast_mul, Nat.cast_pow, Nat.cast_ofNat]
  rw [hpow]
  field_simp

/-- A numeral lies below the power of ten of its order. -/
theorem magnitude_lt (n : Numeral) : n.magnitude < 10 ^ n.order := by
  have hcoefficient : n.coefficient < 10 ^ (Nat.toDigits 10 n.coefficient).length :=
    (Nat.length_toDigits_le_iff (by decide) Nat.length_toDigits_pos).mp le_rfl
  rw [magnitude, order, add_comm, zpow_add₀ (by norm_num), zpow_natCast]
  refine mul_lt_mul_of_pos_right ?_ (by positivity)
  exact_mod_cast hcoefficient

/-- Unless it is zero, it is at least a tenth of that power. -/
theorem le_magnitude (h : n.coefficient ≠ 0) : (10 : ℚ) ^ (n.order - 1) ≤ n.magnitude := by
  have hlength : 0 < (Nat.toDigits 10 n.coefficient).length := Nat.length_toDigits_pos
  have hcoefficient : 10 ^ ((Nat.toDigits 10 n.coefficient).length - 1) ≤ n.coefficient := by
    by_cases hone : (Nat.toDigits 10 n.coefficient).length = 1
    · rw [hone]
      exact Nat.one_le_iff_ne_zero.mpr h
    · refine not_lt.mp fun hlt => ?_
      have hle := (Nat.length_toDigits_le_iff (b := 10) (by decide) (by omega)).mpr hlt
      omega
  have horder : n.order - 1
      = ((Nat.toDigits 10 n.coefficient).length - 1 : ℕ) + n.exponent := by
    unfold order
    omega
  rw [magnitude, horder, zpow_add₀ (by norm_num), zpow_natCast]
  refine mul_le_mul_of_nonneg_right ?_ (by positivity)
  exact_mod_cast hcoefficient

theorem two_zpow_lt_ten_zpow : (2 : ℚ) ^ (1200 : ℤ) < 10 ^ (400 : ℤ) := by
  have hmul : (2 : ℚ) ^ (1200 : ℤ) = (2 ^ (3 : ℤ)) ^ (400 : ℤ) := zpow_mul 2 3 400
  rw [hmul]
  exact zpow_lt_zpow_left₀ (by decide) (by norm_num) (by norm_num)

/-- The rationals that a finite number stands for are far from both extremes. -/
theorem order_bounds (h : x.Covers n.magnitude) (hx : x.exponentField ≠ 2047)
    (hpos : 0 < x.significand) (hn : n.coefficient ≠ 0) : -400 ≤ n.order ∧ n.order ≤ 400 := by
  have hunit : (0 : ℚ) < 2 ^ x.scale := by positivity
  have hm : (1 : ℚ) ≤ x.significand := by exact_mod_cast hpos
  have hm' : (x.significand : ℚ) + 1 ≤ 2 ^ (53 : ℤ) := by exact_mod_cast x.significand_lt
  have hlow : (2 : ℚ) ^ (-1075 : ℤ) ≤ n.magnitude := by
    have hhalf : 2 ^ (-1 : ℤ) ≤ n.magnitude / 2 ^ x.scale := by
      rw [zpow_neg_one]
      linarith [h.low, x.margin_le]
    refine le_trans ?_ ((le_div_iff₀ hunit).mp hhalf)
    rw [← zpow_add₀ (by norm_num)]
    exact zpow_le_zpow_right₀ (by norm_num) (by have := x.le_scale; omega)
  have hhigh : n.magnitude < (2 : ℚ) ^ (1024 : ℤ) := by
    have hfull : n.magnitude / 2 ^ x.scale < 2 ^ (53 : ℤ) := by linarith [h.high]
    refine lt_of_lt_of_le ((div_lt_iff₀ hunit).mp hfull) ?_
    rw [← zpow_add₀ (by norm_num)]
    exact zpow_le_zpow_right₀ (by norm_num) (by have := Binary64.scale_le hx; omega)
  have hgap := two_zpow_lt_ten_zpow
  refine ⟨not_lt.mp fun hlt => ?_, not_lt.mp fun hlt => ?_⟩
  · have htiny : n.magnitude < 10 ^ (-400 : ℤ) :=
      n.magnitude_lt.trans (zpow_lt_zpow_right₀ (by norm_num) hlt)
    have hinv : (10 : ℚ) ^ (-400 : ℤ) < 2 ^ (-1200 : ℤ) := by
      rw [zpow_neg, zpow_neg]
      exact inv_strictAnti₀ (by positivity) hgap
    have hmono : (2 : ℚ) ^ (-1200 : ℤ) ≤ 2 ^ (-1075 : ℤ) :=
      zpow_le_zpow_right₀ (by norm_num) (by decide)
    exact lt_irrefl _ (htiny.trans (hinv.trans_le (hmono.trans hlow)))
  · have hhuge : (10 : ℚ) ^ (400 : ℤ) ≤ n.magnitude :=
      (zpow_le_zpow_right₀ (by norm_num) (by omega)).trans (le_magnitude hn)
    have hmono : (2 : ℚ) ^ (1024 : ℤ) ≤ 2 ^ (1200 : ℤ) :=
      zpow_le_zpow_right₀ (by norm_num) (by decide)
    exact lt_irrefl _ (hhigh.trans (hmono.trans_lt (hgap.trans_le hhuge)))

/-- **A numeral that a finite number stands for is read as that number.** -/
theorem toBinary64_eq (h : x.Covers n.magnitude) (hx : x.exponentField ≠ 2047)
    (hpos : 0 < x.significand) (hsign : n.negative = x.negative) : n.toBinary64 = x := by
  have hn : n.coefficient ≠ 0 := by
    intro hzero
    have hv := h.pos hpos
    rw [magnitude, hzero, Nat.cast_zero, zero_mul] at hv
    exact lt_irrefl _ hv
  obtain ⟨hlow, hhigh⟩ := order_bounds h hx hpos hn
  have hextreme : n.extreme? = none := by
    rw [extreme?, if_neg hn, if_neg (not_lt.mpr hlow), if_neg (not_lt.mpr hhigh)]
  rw [toBinary64, hextreme, hsign]
  refine Binary64.Covers.ofRatio_eq ?_ (Nat.pow_pos (by decide)) hx hpos
  rw [ratio_div]
  exact h

/-- A numeral without a magnitude is read as the zero of its sign. -/
theorem toBinary64_zero (hn : n.magnitude = 0) (hx : x.isZero = true)
    (hsign : n.negative = x.negative) : n.toBinary64 = x := by
  have hcoefficient : n.coefficient = 0 := by
    have hpow : (10 : ℚ) ^ n.exponent ≠ 0 := by positivity
    exact Nat.cast_eq_zero.mp ((mul_eq_zero.mp hn).resolve_right hpow)
  have hextreme : n.extreme? = some (Binary64.zero n.negative) := if_pos hcoefficient
  obtain ⟨he, hf⟩ := Bool.and_eq_true_iff.mp hx
  have hparts := x.assemble_fields
  rw [eq_of_beq he, eq_of_beq hf, Nat.zero_mul, Nat.zero_add] at hparts
  rw [toBinary64, hextreme, hsign]
  exact hparts

end Numeral

end SqlTree
