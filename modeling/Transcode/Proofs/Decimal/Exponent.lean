import Mathlib.Algebra.Order.Floor.Semifield
import Transcode.Proofs.Binary64.Rounding

/-!
# Exact scaled arithmetic and the decimal exponent

The shortest-digits search compares and divides numbers `a · 2 ^ p` and `b · 10 ^ r` without
leaving the natural numbers: it multiplies each side by the powers its negative exponents need
(`Decimal.compareScaled`, `Decimal.floorScaled`). This module states what the two compute in `ℚ`
and proves that `Decimal.exponentOf` finds the decimal exponent of `m · 2 ^ q`, the `n` with
`10 ^ (n - 1) ≤ m · 2 ^ q < 10 ^ n`.

The first guess comes from the bit length `b` through `⌊1233 b / 4096⌋`. Since
`10 ^ 1233 ≤ 2 ^ 4096 ≤ 10 ^ 1234`, the fraction `1233 / 4096` is within `1 / 4096` of `log₁₀ 2`,
so over the exponents of binary64 the guess is off by less than two; `settle` corrects a guess
off by up to four, one step at a time.

## Main results

* `Decimal.compareScaled_eq`, `Decimal.floorScaled_eq`: the exact comparison and quotient.
* `Decimal.settle_eq`: each step of `settle` moves the guess toward the decimal exponent.
* `Decimal.exponentOf_eq`: the decimal exponent of `m · 2 ^ q` is `Int.log 10 (m · 2 ^ q) + 1`.
-/

namespace Transcode

namespace Decimal

/-! ## Scaled comparison and division -/

/-- Two comparisons agree when their `<` and their `=` do. -/
theorem compare_eq_compare {α β : Type} [LinearOrder α] [LinearOrder β] {a b : α} {c d : β}
    (hLt : a < b ↔ c < d) (hEq : a = b ↔ c = d) : compare a b = compare c d := by
  rcases lt_trichotomy a b with h | h | h
  · rw [compare_lt_iff_lt.mpr h, compare_lt_iff_lt.mpr (hLt.mp h)]
  · rw [compare_eq_iff_eq.mpr h, compare_eq_iff_eq.mpr (hEq.mp h)]
  · have hNotLt : ¬c < d := fun h' => (lt_asymm h) (hLt.mpr h')
    have hNe : c ≠ d := fun h' => (ne_of_gt h) (hEq.mpr h')
    rw [compare_gt_iff_gt.mpr h, compare_gt_iff_gt.mpr (lt_of_le_of_ne (not_lt.mp hNotLt) hNe.symm)]

/-- Multiplying `a · 2 ^ p` and `b · 10 ^ r` by the powers of their negative exponents gives the
natural numbers `compareScaled` compares. -/
theorem scaled_mul_eq (a : ℕ) (p : ℤ) (b : ℕ) (r : ℤ) :
    (a : ℚ) * 2 ^ p * (2 ^ (-p).toNat * 10 ^ (-r).toNat) =
        ((a * Nat.pow 2 p.toNat * Nat.pow 10 (-r).toNat : ℕ) : ℚ) ∧
      (b : ℚ) * 10 ^ r * (2 ^ (-p).toNat * 10 ^ (-r).toNat) =
        ((b * Nat.pow 10 r.toNat * Nat.pow 2 (-p).toNat : ℕ) : ℚ) := by
  have hTwo : (2 : ℚ) ^ p * 2 ^ (-p).toNat = 2 ^ p.toNat := by
    rw [← zpow_natCast, ← zpow_natCast, ← zpow_add₀ (by norm_num)]
    congr 1
    omega
  have hTen : (10 : ℚ) ^ r * 10 ^ (-r).toNat = 10 ^ r.toNat := by
    rw [← zpow_natCast, ← zpow_natCast, ← zpow_add₀ (by norm_num)]
    congr 1
    omega
  constructor
  · push_cast [Nat.pow_eq]
    calc (a : ℚ) * 2 ^ p * (2 ^ (-p).toNat * 10 ^ (-r).toNat) =
          a * (2 ^ p * 2 ^ (-p).toNat) * 10 ^ (-r).toNat := by ring
      _ = a * 2 ^ p.toNat * 10 ^ (-r).toNat := by rw [hTwo]
  · push_cast [Nat.pow_eq]
    calc (b : ℚ) * 10 ^ r * (2 ^ (-p).toNat * 10 ^ (-r).toNat) =
          b * (10 ^ r * 10 ^ (-r).toNat) * 2 ^ (-p).toNat := by ring
      _ = b * 10 ^ r.toNat * 2 ^ (-p).toNat := by rw [hTen]

/-- **`compareScaled` compares `a · 2 ^ p` with `b · 10 ^ r` exactly.** -/
theorem compareScaled_eq (a : ℕ) (p : ℤ) (b : ℕ) (r : ℤ) :
    compareScaled a p b r = compare ((a : ℚ) * 2 ^ p) ((b : ℚ) * 10 ^ r) := by
  obtain ⟨hLeft, hRight⟩ := scaled_mul_eq a p b r
  have hPos : (0 : ℚ) < 2 ^ (-p).toNat * 10 ^ (-r).toNat := by positivity
  unfold compareScaled
  apply compare_eq_compare
  · rw [← mul_lt_mul_iff_of_pos_right hPos, hLeft, hRight]
    exact_mod_cast Iff.rfl
  · rw [← mul_left_inj' hPos.ne', hLeft, hRight]
    exact_mod_cast Iff.rfl

/-- **`floorScaled` is the floor of `a · 2 ^ p / 10 ^ r`.** -/
theorem floorScaled_eq (a : ℕ) (p r : ℤ) :
    floorScaled a p r = ⌊(a : ℚ) * 2 ^ p / 10 ^ r⌋₊ := by
  obtain ⟨hLeft, hRight⟩ := scaled_mul_eq a p 1 r
  have hPos : (0 : ℚ) < 2 ^ (-p).toNat * 10 ^ (-r).toNat := by positivity
  -- clearing the denominators of both sides turns the quotient into one of naturals
  have hRatio : (a : ℚ) * 2 ^ p / 10 ^ r =
      ((a * Nat.pow 2 p.toNat * Nat.pow 10 (-r).toNat : ℕ) : ℚ) /
        ((Nat.pow 10 r.toNat * Nat.pow 2 (-p).toNat : ℕ) : ℚ) := by
    rw [← mul_div_mul_right _ _ hPos.ne', hLeft]
    congr 1
    simpa only [Nat.cast_one, one_mul] using hRight
  unfold floorScaled
  rw [hRatio, Nat.floor_div_eq_div]

/-! ## The decimal exponent -/

/-- A power inequality `a ^ i ≤ c ^ j` carries over to the powers `i k` and `j k` for `k ≥ 0`. -/
theorem zpow_mul_le_of_pow_le {a c : ℚ} {i j : ℕ} {k : ℤ} (ha : 0 < a) (h : a ^ i ≤ c ^ j)
    (hk : 0 ≤ k) : a ^ ((i : ℤ) * k) ≤ c ^ ((j : ℤ) * k) := by
  lift k to ℕ using hk
  simp only [zpow_mul, zpow_natCast]
  exact pow_le_pow_left₀ (pow_nonneg ha.le i) h k

/-- A power inequality `c ^ j ≤ a ^ i` turns around for the powers `i k` and `j k`, `k ≤ 0`. -/
theorem zpow_mul_le_of_pow_ge {a c : ℚ} {i j : ℕ} {k : ℤ} (ha : 0 < a) (hc : 0 < c)
    (h : c ^ j ≤ a ^ i) (hk : k ≤ 0) : a ^ ((i : ℤ) * k) ≤ c ^ ((j : ℤ) * k) := by
  have hNeg := zpow_mul_le_of_pow_le hc h (neg_nonneg.mpr hk)
  rw [mul_neg, mul_neg, zpow_neg, zpow_neg] at hNeg
  exact (inv_le_inv₀ (zpow_pos hc _) (zpow_pos ha _)).mp hNeg

/-- Powers compare as their `n`-th powers do. -/
theorem zpow_le_zpow_of_mul {a c : ℚ} {n : ℕ} {x y : ℤ} (ha : 0 < a) (hc : 0 < c) (hn : n ≠ 0)
    (h : a ^ ((n : ℤ) * x) ≤ c ^ ((n : ℤ) * y)) : a ^ x ≤ c ^ y := by
  rw [mul_comm, zpow_mul, zpow_natCast, mul_comm, zpow_mul, zpow_natCast] at h
  exact (pow_le_pow_iff_left₀ (zpow_pos ha x).le (zpow_pos hc y).le hn).mp h

theorem ten_pow_1233_le : (10 : ℚ) ^ 1233 ≤ 2 ^ 4096 := by
  exact_mod_cast (by decide +kernel : (10 : ℕ) ^ 1233 ≤ 2 ^ 4096)

theorem two_pow_4096_le : (2 : ℚ) ^ 4096 ≤ 10 ^ 1234 := by
  exact_mod_cast (by decide +kernel : (2 : ℕ) ^ 4096 ≤ 10 ^ 1234)

section Estimate

variable {b t : ℤ}

/-- The guess `t = ⌊1233 b / 4096⌋` is at most four above the decimal logarithm of `2 ^ b`. -/
theorem ten_zpow_le_of_estimate (ht : 4096 * t ≤ 1233 * b) (hb : -4096 ≤ b) :
    (10 : ℚ) ^ (t - 4) ≤ 2 ^ b := by
  apply zpow_le_zpow_of_mul (by norm_num) (by norm_num) (by norm_num : 4096 ≠ 0)
  rcases le_or_gt 0 b with hPos | hNeg
  · calc (10 : ℚ) ^ ((4096 : ℕ) * (t - 4) : ℤ) ≤ 10 ^ ((1233 : ℕ) * b : ℤ) :=
          zpow_le_zpow_right₀ (by norm_num) (by push_cast; omega)
      _ ≤ 2 ^ ((4096 : ℕ) * b : ℤ) := zpow_mul_le_of_pow_le (by norm_num) ten_pow_1233_le hPos
  · calc (10 : ℚ) ^ ((4096 : ℕ) * (t - 4) : ℤ) ≤ 10 ^ ((1234 : ℕ) * b : ℤ) :=
          zpow_le_zpow_right₀ (by norm_num) (by push_cast; omega)
      _ ≤ 2 ^ ((4096 : ℕ) * b : ℤ) :=
          zpow_mul_le_of_pow_ge (by norm_num) (by norm_num) two_pow_4096_le hNeg.le

/-- The guess `t = ⌊1233 b / 4096⌋` is at most four below the decimal logarithm of `2 ^ b`. -/
theorem two_zpow_le_of_estimate (ht : 1233 * b < 4096 * (t + 1)) (hb : b ≤ 4096) :
    (2 : ℚ) ^ (b + 1) ≤ 10 ^ (t + 5) := by
  apply zpow_le_zpow_of_mul (by norm_num) (by norm_num) (by norm_num : 4096 ≠ 0)
  rcases le_or_gt 0 (b + 1) with hPos | hNeg
  · calc (2 : ℚ) ^ ((4096 : ℕ) * (b + 1) : ℤ) ≤ 10 ^ ((1234 : ℕ) * (b + 1) : ℤ) :=
          zpow_mul_le_of_pow_le (by norm_num) two_pow_4096_le hPos
      _ ≤ 10 ^ ((4096 : ℕ) * (t + 5) : ℤ) :=
          zpow_le_zpow_right₀ (by norm_num) (by push_cast; omega)
  · calc (2 : ℚ) ^ ((4096 : ℕ) * (b + 1) : ℤ) ≤ 10 ^ ((1233 : ℕ) * (b + 1) : ℤ) :=
          zpow_mul_le_of_pow_ge (by norm_num) (by norm_num) ten_pow_1233_le hNeg.le
      _ ≤ 10 ^ ((4096 : ℕ) * (t + 5) : ℤ) :=
          zpow_le_zpow_right₀ (by norm_num) (by push_cast; omega)

end Estimate

section Settle

variable {m : ℕ} {q : ℤ}

/-- `settle` steps up exactly while `10 ^ n ≤ m · 2 ^ q`. -/
theorem compareScaled_ne_lt_iff (hm : m ≠ 0) (n : ℤ) :
    (compareScaled m q 1 n != .lt) = true ↔ n < Int.log 10 ((m : ℚ) * 2 ^ q) + 1 := by
  have hx : (0 : ℚ) < m * 2 ^ q := mul_pos (by exact_mod_cast Nat.pos_of_ne_zero hm) (zpow_pos two_pos q)
  have hLog : ((10 : ℕ) : ℚ) ^ n ≤ m * 2 ^ q ↔ n ≤ Int.log 10 ((m : ℚ) * 2 ^ q) :=
    Int.zpow_le_iff_le_log (by norm_num) hx
  rw [bne_iff_ne, compareScaled_eq, Ne, compare_lt_iff_lt, not_lt, Nat.cast_one, one_mul]
  rw [Nat.cast_ofNat] at hLog
  rw [hLog]
  omega

/-- `settle` steps down exactly while `m · 2 ^ q < 10 ^ (n - 1)`. -/
theorem compareScaled_eq_lt_iff (hm : m ≠ 0) (n : ℤ) :
    (compareScaled m q 1 (n - 1) == .lt) = true ↔ Int.log 10 ((m : ℚ) * 2 ^ q) + 1 < n := by
  have hx : (0 : ℚ) < m * 2 ^ q := mul_pos (by exact_mod_cast Nat.pos_of_ne_zero hm) (zpow_pos two_pos q)
  have hLog : (m : ℚ) * 2 ^ q < ((10 : ℕ) : ℚ) ^ (n - 1) ↔ Int.log 10 ((m : ℚ) * 2 ^ q) < n - 1 :=
    Int.lt_zpow_iff_log_lt (by norm_num) hx
  rw [beq_iff_eq, compareScaled_eq, compare_lt_iff_lt, Nat.cast_one, one_mul]
  rw [Nat.cast_ofNat] at hLog
  rw [hLog]
  omega

/-- **Each step of `settle` moves one toward the decimal exponent**, so a guess within `fuel`
of it settles on it. -/
theorem settle_eq (hm : m ≠ 0) (fuel : ℕ) (n : ℤ)
    (hLow : Int.log 10 ((m : ℚ) * 2 ^ q) + 1 - fuel ≤ n)
    (hHigh : n ≤ Int.log 10 ((m : ℚ) * 2 ^ q) + 1 + fuel) :
    exponentOf.settle m q fuel n = Int.log 10 ((m : ℚ) * 2 ^ q) + 1 := by
  induction fuel generalizing n with
  | zero =>
    rw [exponentOf.settle]
    omega
  | succ fuel ih =>
    rw [exponentOf.settle]
    split_ifs with hUp hDown
    · have hBelow := (compareScaled_ne_lt_iff hm n).mp hUp
      exact ih (n + 1) (by push_cast at hLow; omega) (by omega)
    · have hAbove := (compareScaled_eq_lt_iff hm n).mp hDown
      exact ih (n - 1) (by omega) (by push_cast at hHigh; omega)
    · have hNotBelow := mt (compareScaled_ne_lt_iff hm n).mpr hUp
      have hNotAbove := mt (compareScaled_eq_lt_iff hm n).mpr hDown
      omega

end Settle

/-- **`exponentOf` finds the decimal exponent** of `m · 2 ^ q` whenever the bit length of
`m · 2 ^ q` is within `4096` of one, as it is for every binary64 value. -/
theorem exponentOf_eq {m : ℕ} {q : ℤ} (hm : m ≠ 0) (hLow : -4096 ≤ (m.log2 : ℤ) + q)
    (hHigh : (m.log2 : ℤ) + q ≤ 4096) :
    exponentOf m q = Int.log 10 ((m : ℚ) * 2 ^ q) + 1 := by
  set b : ℤ := (m.log2 : ℤ) + q with hb
  set t : ℤ := b * 1233 / 4096 with ht
  have hx : (0 : ℚ) < m * 2 ^ q := mul_pos (by exact_mod_cast Nat.pos_of_ne_zero hm) (zpow_pos two_pos q)
  -- the value lies between `2 ^ b` and `2 ^ (b + 1)`
  obtain ⟨hTwoLow, hTwoHigh⟩ := Binary64.two_zpow_log2_bounds hm
  have hValueLow : (2 : ℚ) ^ b ≤ m * 2 ^ q := by
    rw [hb, zpow_add₀ two_ne_zero]
    exact mul_le_mul_of_nonneg_right hTwoLow (zpow_pos two_pos q).le
  have hValueHigh : (m : ℚ) * 2 ^ q < 2 ^ (b + 1) := by
    rw [hb, add_right_comm, zpow_add₀ two_ne_zero]
    exact mul_lt_mul_of_pos_right hTwoHigh (zpow_pos two_pos q)
  have hLogLow : t - 4 ≤ Int.log 10 ((m : ℚ) * 2 ^ q) := by
    rw [← Int.zpow_le_iff_le_log (by norm_num) hx, Nat.cast_ofNat]
    exact (ten_zpow_le_of_estimate (by omega) (by omega)).trans hValueLow
  have hLogHigh : Int.log 10 ((m : ℚ) * 2 ^ q) < t + 5 := by
    rw [← Int.lt_zpow_iff_log_lt (by norm_num) hx, Nat.cast_ofNat]
    exact hValueHigh.trans_le (two_zpow_le_of_estimate (by omega) (by omega))
  exact settle_eq hm 4 _ (by push_cast; omega) (by push_cast; omega)

end Decimal

end Transcode
