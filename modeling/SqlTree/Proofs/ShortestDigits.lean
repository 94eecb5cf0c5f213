import SqlTree.Decimal.Shortest
import SqlTree.Proofs.NearestNumber

/-!
# The chosen decimal belongs to the number

The digits of a finite number are searched among the decimals that read back, and the search is
closed by the exact value. So the number stands for what the digits say:

* `Decimal.compareScaled_eq` -- comparing a power of ten with a power of two compares the two
  rationals;
* `Decimal.covers_of_readsBack` -- the test for reading back is exact;
* `Decimal.value_stripped` -- trailing zeros move into the exponent without a loss;
* `Decimal.covers_shortest` -- a finite number stands for its shortest decimal.
-/

namespace SqlTree.Decimal

variable {x : Binary64} {d : Decimal} {tie : Tie}

/-- The rational that a decimal denotes. -/
def value (d : Decimal) : ℚ := d.digits * 10 ^ d.exponent

/-! ## 1. Comparing powers of ten with powers of two -/

/-- **A power of ten and a power of two compare as the rationals do.** -/
theorem compareScaled_eq (a b : ℕ) (i j : ℤ) :
    compareScaled a i b j = compare (a * 10 ^ i : ℚ) (b * 2 ^ j) := by
  have hten := pow_toNat (b := 10) (by norm_num) i
  have htwo := pow_toNat (b := 2) (by norm_num) j
  -- both sides are multiplied by one number, which makes them whole
  have hfactor : (0 : ℚ) < 10 ^ (-i).toNat * 2 ^ (-j).toNat := by positivity
  have hleft : ((a * Nat.pow 10 i.toNat * Nat.pow 2 (-j).toNat : ℕ) : ℚ)
      = a * 10 ^ i * (10 ^ (-i).toNat * 2 ^ (-j).toNat) := by
    simp only [Nat.pow_eq, Nat.cast_mul, Nat.cast_pow, Nat.cast_ofNat]
    rw [hten]
    ring
  have hright : ((b * Nat.pow 2 j.toNat * Nat.pow 10 (-i).toNat : ℕ) : ℚ)
      = b * 2 ^ j * (10 ^ (-i).toNat * 2 ^ (-j).toNat) := by
    simp only [Nat.pow_eq, Nat.cast_mul, Nat.cast_pow, Nat.cast_ofNat]
    rw [htwo]
    ring
  rw [compareScaled, ← cmp_eq_compare, ← cmp_eq_compare,
    ← (Nat.strictMono_cast (α := ℚ)).cmp_map_eq, hleft, hright, cmp_mul_pos_right hfactor]

/-! ## 2. Reading back -/

/-- **The test for reading back is exact.** -/
theorem covers_of_readsBack (hpos : 0 < x.significand) (h : readsBack x d = true) :
    x.Covers d.value := by
  have hunit : (0 : ℚ) < 2 ^ x.scale := by positivity
  -- the ends of the interval in quarters of the last bit
  have hquarter : (2 : ℚ) ^ (x.scale - 2) = 2 ^ x.scale / 4 := by
    rw [zpow_sub₀ (by norm_num)]
    norm_num
  have hlow : ((if narrowBelow x then 4 * x.significand - 1 else 4 * x.significand - 2 : ℕ) : ℚ)
      * 2 ^ (x.scale - 2) = (x.significand - x.margin) * 2 ^ x.scale := by
    rw [hquarter, Binary64.margin]
    split
    · rw [Nat.cast_sub (by omega)]
      push_cast
      ring
    · rw [Nat.cast_sub (by omega)]
      push_cast
      ring
  have hhigh : ((4 * x.significand + 2 : ℕ) : ℚ) * 2 ^ (x.scale - 2)
      = (x.significand + 1 / 2) * 2 ^ x.scale := by
    rw [hquarter]
    push_cast
    ring
  simp only [readsBack, Bool.and_eq_true, Bool.or_eq_true, beq_iff_eq, compareScaled_eq,
    compare_gt_iff_gt, compare_lt_iff_lt, compare_eq_iff_eq, hlow, hhigh] at h
  obtain ⟨hbelow, habove⟩ := h
  refine ⟨?_, ?_, ?_⟩
  · rw [le_div_iff₀ hunit]
    exact hbelow.elim le_of_lt fun heq => heq.2.ge
  · rw [div_le_iff₀ hunit]
    exact habove.elim le_of_lt fun heq => heq.2.le
  · rw [div_eq_iff hunit.ne', div_eq_iff hunit.ne']
    rintro (heq | heq)
    · exact hbelow.elim (fun hlt => absurd heq hlt.ne') And.left
    · exact habove.elim (fun hlt => absurd heq hlt.ne) And.left

/-! ## 3. The search -/

/-- Of two neighbours, only one that reads back is taken. -/
theorem readsBack_of_nearer {low high : Decimal} (h : nearer x tie low high = some d) :
    readsBack x d = true := by
  unfold nearer at h
  cases hlow : readsBack x low <;> cases hhigh : readsBack x high <;> rw [hlow, hhigh] at h
  · exact nomatch h
  · exact Option.some.inj h ▸ hhigh
  · exact Option.some.inj h ▸ hlow
  · dsimp only at h
    split at h
    · exact Option.some.inj h ▸ hlow
    · exact Option.some.inj h ▸ hhigh
    · split at h
      · exact Option.some.inj h ▸ hhigh
      · split_ifs at h
        · exact Option.some.inj h ▸ hlow
        · exact Option.some.inj h ▸ hhigh

/-- **Trailing zeros move into the exponent without a loss.** -/
theorem value_stripped (fuel : ℕ) (d : Decimal) : (stripped fuel d).value = d.value := by
  induction fuel generalizing d with
  | zero => rfl
  | succ fuel ih =>
    unfold stripped
    split
    · rename_i hzero
      have hdigits : d.digits = d.digits / 10 * 10 := by omega
      rw [ih, value, value, zpow_add_one₀ (by norm_num)]
      conv_rhs => rw [hdigits, Nat.cast_mul]
      push_cast
      ring
    · rfl

theorem value_exact (x : Binary64) : (exact x).value = x.significand * 2 ^ x.scale := by
  unfold exact
  split
  · rename_i hscale
    obtain ⟨n, hn⟩ := Int.eq_ofNat_of_zero_le hscale
    rw [value, hn]
    simp
  · rename_i hscale
    obtain ⟨n, hn⟩ := Int.eq_ofNat_of_zero_le (Int.neg_nonneg_of_nonpos (not_le.mp hscale).le)
    have hneg : x.scale = -(n : ℤ) := by omega
    have hten : (10 : ℚ) ^ n = 5 ^ n * 2 ^ n := by rw [← mul_pow]; norm_num
    rw [value, hneg, neg_neg, zpow_neg, zpow_neg, zpow_natCast, zpow_natCast, hten]
    simp
    field_simp

/-- **A finite number stands for its shortest decimal.** -/
theorem covers_shortest (tie : Tie) (hpos : 0 < x.significand) :
    x.Covers (shortest tie x).value := by
  have hchosen : ∀ found : Option Decimal, (∀ d, found = some d → readsBack x d = true) →
      x.Covers (found.getD (exact x)).value := by
    intro found hfound
    cases found with
    | none =>
      rw [Option.getD_none, value_exact]
      exact x.covers_self
    | some d => exact covers_of_readsBack hpos (hfound d rfl)
  unfold shortest
  dsimp only
  rw [value_stripped]
  refine hchosen _ fun d hd => ?_
  obtain ⟨more, -, hgrid⟩ := List.exists_of_findSome?_eq_some hd
  exact readsBack_of_nearer hgrid

end SqlTree.Decimal
