import Mathlib.Data.Int.ModEq
import Mathlib.Data.Rat.Floor
import Transcode.Binary64.Integer

/-!
# The numbers binary64 patterns denote

A finite binary64 value denotes the rational number `(-1) ^ negative · mantissa · 2 ^ exponent`
of its decoded fields (`Binary64.toRat?`); a NaN and the infinities denote none, and both zeros
denote `0`. This module ties the library's integer-valued operations on patterns, which work on
the decoded fields with `Nat` division and shifts only, to that number:

* truncation is truncation toward zero of the number (`towardZero`), so a 32-bit cell stores
  the unique int32 congruent to it modulo `2 ^ 32`, and the low byte through a mask of the cell
  is the same byte as a direct 8-bit store;
* a safe integer is a pattern that denotes an integer of magnitude below `2 ^ 53`;
* comparison is comparison of the numbers;
* `ofNat` is exact up to `2 ^ 53` and gives at least `2 ^ 53` beyond.

## Main results

* `Binary64.truncate_eq_truncatedValue`: truncation of the denoted number.
* `Binary64.toInt32_toInt_eq_iff`: the cell value is the int32 congruent to the truncation.
* `Binary64.isSafeInteger_iff`, `Binary64.lt_iff`, `Binary64.gt_iff`, `Binary64.isNegative_iff`.
* `Binary64.toRat?_ofNat`, `Binary64.ofNat_large`: integers rounded to binary64.
-/

namespace Transcode

/-- A rational number truncated toward zero: rounded down when it is at least zero, up when it
is below. -/
def towardZero (q : ℚ) : ℤ := if 0 ≤ q then ⌊q⌋ else ⌈q⌉

@[simp] theorem towardZero_intCast (z : ℤ) : towardZero z = z := by
  unfold towardZero
  split <;> simp

theorem towardZero_neg (q : ℚ) : towardZero (-q) = -towardZero q := by
  unfold towardZero
  rcases lt_trichotomy q 0 with hq | rfl | hq
  · rw [if_pos (by linarith), if_neg (by linarith), Int.floor_neg]
  · simp
  · rw [if_neg (by linarith), if_pos hq.le, Int.ceil_neg]

/-- Truncating `m / 2 ^ k` is dividing `m` by `2 ^ k`. -/
theorem towardZero_div_two_pow (m k : ℕ) : towardZero ((m : ℚ) / 2 ^ k) = ((m / 2 ^ k : ℕ) : ℤ) := by
  have hNonneg : (0 : ℚ) ≤ (m : ℚ) / 2 ^ k := by positivity
  unfold towardZero
  rw [if_pos hNonneg]
  have hCast : (m : ℚ) / 2 ^ k = ((m : ℤ) : ℚ) / ((2 ^ k : ℕ) : ℚ) := by push_cast; rfl
  rw [hCast, Rat.floor_intCast_div_natCast]
  push_cast
  rfl

namespace Binary64

/-- The number `(-1) ^ negative · m · 2 ^ q`. -/
def dyadic (negative : Bool) (m : ℕ) (q : ℤ) : ℚ := if negative then -((m : ℚ) * 2 ^ q) else m * 2 ^ q

/-- The rational number a finite value denotes; `none` for a NaN or an infinity. -/
def toRat? (x : Binary64) : Option ℚ :=
  match x.kind with
  | .finite negative m q => some (dyadic negative m q)
  | _ => none

theorem toRat?_eq_some {x : Binary64} {a : ℚ} :
    x.toRat? = some a ↔ ∃ negative m q, x.kind = .finite negative m q ∧ dyadic negative m q = a := by
  unfold toRat?
  cases x.kind <;> simp

theorem toRat?_of_kind {x : Binary64} {negative : Bool} {m : ℕ} {q : ℤ}
    (h : x.kind = .finite negative m q) : x.toRat? = some (dyadic negative m q) := by
  simp [toRat?, h]

/-- A nonnegative exponent scales by a natural power of two. -/
theorem natCast_mul_zpow_of_nonneg (m : ℕ) {q : ℤ} (hq : 0 ≤ q) :
    (m : ℚ) * 2 ^ q = ((m * 2 ^ q.toNat : ℕ) : ℚ) := by
  rw [← Int.toNat_of_nonneg hq, zpow_natCast]
  push_cast
  rfl

/-- A negative exponent divides by a natural power of two. -/
theorem natCast_mul_zpow_of_neg (m : ℕ) {q : ℤ} (hq : q < 0) :
    (m : ℚ) * 2 ^ q = (m : ℚ) / 2 ^ (-q).toNat := by
  obtain ⟨k, rfl⟩ : ∃ k : ℕ, q = -(k : ℤ) := ⟨(-q).toNat, by omega⟩
  rw [neg_neg, Int.toNat_natCast, zpow_neg, zpow_natCast, div_eq_mul_inv]

/-! ## Truncation -/

/-- The number a value denotes, truncated toward zero; `0` for a NaN or an infinity. -/
def truncatedValue (x : Binary64) : ℤ :=
  match x.toRat? with
  | some q => towardZero q
  | none => 0

/-- **Truncation is truncation toward zero of the denoted number**, and `0` for a NaN or an
infinity. -/
theorem truncate_eq_truncatedValue (x : Binary64) : x.truncate = x.truncatedValue := by
  unfold truncate truncatedValue toRat?
  cases x.kind with
  | nan => rfl
  | infinite negative => rfl
  | finite negative m q =>
    simp only [dyadic]
    -- the magnitude is `m · 2 ^ q` or `m / 2 ^ -q`, and the sign is applied last on both sides
    have hMagnitude : towardZero ((m : ℚ) * 2 ^ q) =
        ((if 0 ≤ q then m * 2 ^ q.toNat else m / 2 ^ (-q).toNat : ℕ) : ℤ) := by
      by_cases hq : 0 ≤ q
      · rw [if_pos hq, natCast_mul_zpow_of_nonneg m hq]
        exact_mod_cast towardZero_intCast _
      · rw [if_neg hq, natCast_mul_zpow_of_neg m (by omega), towardZero_div_two_pow]
    cases negative with
    | false => simp only [Nat.pow_eq, hMagnitude, Bool.false_eq_true, if_false]
    | true => simp only [Nat.pow_eq, towardZero_neg, hMagnitude, if_true]

/-- A pattern that denotes an integer truncates to it. -/
theorem truncate_of_toRat? {x : Binary64} {z : ℤ} (h : x.toRat? = some (z : ℚ)) :
    x.truncate = z := by
  rw [truncate_eq_truncatedValue, truncatedValue, h]
  exact towardZero_intCast z

/-- The cell value is the truncation reduced into `[-2 ^ 31, 2 ^ 31)`. -/
theorem toInt32_toInt (x : Binary64) : x.toInt32.toInt = x.truncate.bmod (2 ^ 32) := by
  rw [toInt32, Int32.toInt_ofInt]
  rfl

/-- **Storing into a 32-bit cell wraps**: the cell holds the unique int32 congruent to the
truncation modulo `2 ^ 32`. -/
theorem toInt32_toInt_eq_iff (x : Binary64) (r : ℤ) :
    x.toInt32.toInt = r ↔ -2 ^ 31 ≤ r ∧ r < 2 ^ 31 ∧ r ≡ x.truncate [ZMOD 2 ^ 32] := by
  rw [toInt32_toInt]
  have hLow := Int.le_bmod (x := x.truncate) (m := 2 ^ 32) (by norm_num)
  have hHigh := Int.bmod_lt (x := x.truncate) (m := 2 ^ 32) (by norm_num)
  have hMod := Int.bmod_emod (x := x.truncate) (m := 2 ^ 32)
  generalize x.truncate.bmod (2 ^ 32) = b at hLow hHigh hMod ⊢
  push_cast at hLow hHigh hMod
  unfold Int.ModEq
  constructor
  · rintro rfl
    exact ⟨by omega, by omega, hMod⟩
  · rintro ⟨hr1, hr2, hr⟩
    -- two numbers of one residue class that lie in one window of width `2 ^ 32` are equal
    omega

/-- The low byte of the cell, as a mask with `0xff` reads it, is the byte a direct 8-bit store
keeps: both are the truncation modulo `256`. -/
theorem maskByte_eq_toUInt8 (x : Binary64) : x.maskByte = x.toUInt8 := by
  unfold maskByte toUInt8
  rw [toInt32_toInt]
  have hMod : x.truncate.bmod (2 ^ 32) % ((2 ^ 32 : ℕ) : ℤ) = x.truncate % ((2 ^ 32 : ℕ) : ℤ) :=
    Int.bmod_emod
  have hDvd : (256 : ℤ) ∣ ((2 ^ 32 : ℕ) : ℤ) := ⟨2 ^ 24, by norm_num⟩
  rw [← Int.emod_emod_of_dvd _ hDvd, hMod, Int.emod_emod_of_dvd _ hDvd]

/-- The 8-bit store is the truncation modulo `256`. -/
theorem toUInt8_toNat (x : Binary64) : (x.toUInt8.toNat : ℤ) = x.truncate % 256 := by
  have hLow : 0 ≤ x.truncate % 256 := Int.emod_nonneg _ (by norm_num)
  have hHigh : x.truncate % 256 < 256 := Int.emod_lt_of_pos _ (by norm_num)
  unfold toUInt8
  rw [UInt8.toNat_ofNat', Nat.mod_eq_of_lt (by omega)]
  omega

/-! ## Integers and comparison -/

/-- The magnitude of a value with a negative exponent is an integer exactly when the power of
two divides the significand. -/
private theorem exists_intCast_eq_div_two_pow (m k : ℕ) :
    (∃ z : ℤ, (m : ℚ) / 2 ^ k = z) ↔ m % 2 ^ k = 0 := by
  constructor
  · rintro ⟨z, hz⟩
    rw [div_eq_iff (by positivity)] at hz
    have hInt : (m : ℤ) = z * 2 ^ k := by exact_mod_cast hz
    have hDvd : ((2 ^ k : ℕ) : ℤ) ∣ (m : ℤ) := ⟨z, by push_cast; rw [hInt, mul_comm]⟩
    exact Nat.mod_eq_zero_of_dvd (Int.natCast_dvd_natCast.mp hDvd)
  · intro h
    obtain ⟨j, rfl⟩ := Nat.dvd_of_mod_eq_zero h
    exact ⟨j, by push_cast; field_simp⟩

/-- A value denotes an integer exactly when its exponent is nonnegative or the power of two it
divides by divides the significand. -/
theorem exists_intCast_eq_dyadic (negative : Bool) (m : ℕ) (q : ℤ) :
    (∃ z : ℤ, dyadic negative m q = z) ↔ (0 ≤ q ∨ m % 2 ^ (-q).toNat = 0) := by
  -- the sign does not change whether the magnitude is an integer
  have hMagnitude : (∃ z : ℤ, dyadic negative m q = z) ↔ ∃ z : ℤ, (m : ℚ) * 2 ^ q = z := by
    cases negative with
    | false => rfl
    | true =>
      simp only [dyadic, if_true]
      exact ⟨fun ⟨z, hz⟩ => ⟨-z, by push_cast; linarith⟩,
        fun ⟨z, hz⟩ => ⟨-z, by push_cast; linarith⟩⟩
  rw [hMagnitude]
  by_cases hq : 0 ≤ q
  · simp only [hq, true_or, iff_true]
    exact ⟨_, natCast_mul_zpow_of_nonneg m hq⟩
  · rw [natCast_mul_zpow_of_neg m (by omega), exists_intCast_eq_div_two_pow]
    simp [hq]

theorem isInteger_iff (x : Binary64) : x.isInteger = true ↔ ∃ z : ℤ, x.toRat? = some (z : ℚ) := by
  unfold isInteger toRat?
  cases x.kind with
  | nan => simp
  | infinite negative => simp
  | finite negative m q =>
    simp only [Bool.or_eq_true, decide_eq_true_eq, Option.some.injEq]
    exact (exists_intCast_eq_dyadic negative m q).symm

/-- **Safe integers**: a pattern is a safe integer exactly when it denotes an integer of
magnitude at most `2 ^ 53 - 1`. -/
theorem isSafeInteger_iff (x : Binary64) :
    x.isSafeInteger = true ↔ ∃ z : ℤ, x.toRat? = some (z : ℚ) ∧ z.natAbs ≤ 2 ^ 53 - 1 := by
  unfold isSafeInteger
  rw [Bool.and_eq_true, isInteger_iff, decide_eq_true_iff]
  constructor
  · rintro ⟨⟨z, hz⟩, hBound⟩
    exact ⟨z, hz, truncate_of_toRat? hz ▸ hBound⟩
  · rintro ⟨z, hz, hBound⟩
    exact ⟨⟨z, hz⟩, (truncate_of_toRat? hz).symm ▸ hBound⟩

/-- Both values scaled to the smaller of their exponents. -/
private theorem dyadic_scale (negative : Bool) (m : ℕ) {q₁ q : ℤ} (h : q ≤ q₁) :
    dyadic negative m q₁ =
      ((if negative then -((m * 2 ^ (q₁ - q).toNat : ℕ) : ℤ) else ((m * 2 ^ (q₁ - q).toNat : ℕ) : ℤ)
        : ℤ) : ℚ) * 2 ^ q := by
  have hPow : (2 : ℚ) ^ q₁ = 2 ^ (q₁ - q).toNat * 2 ^ q := by
    rw [← zpow_natCast, Int.toNat_of_nonneg (by omega), ← zpow_add₀ (by norm_num)]
    congr 1
    omega
  unfold dyadic
  cases negative <;> simp only [hPow, if_true, Bool.false_eq_true, if_false] <;> push_cast <;> ring

/-- **Comparison is comparison of the denoted numbers.** -/
theorem order_of_toRat? {x y : Binary64} {a b : ℚ} (hx : x.toRat? = some a)
    (hy : y.toRat? = some b) : x.order y = some (compare a b) := by
  obtain ⟨s₁, m₁, q₁, hKindX, rfl⟩ := toRat?_eq_some.mp hx
  obtain ⟨s₂, m₂, q₂, hKindY, rfl⟩ := toRat?_eq_some.mp hy
  unfold order
  rw [hKindX, hKindY]
  simp only [orderFinite, Option.some.injEq]
  -- both sides compare the scaled integers, the numbers only after multiplying by `2 ^ min`
  have hScale : StrictMono fun z : ℤ => (z : ℚ) * 2 ^ min q₁ q₂ :=
    fun a b h => mul_lt_mul_of_pos_right (Int.cast_lt.mpr h) (zpow_pos (by norm_num) _)
  rw [dyadic_scale s₁ m₁ (min_le_left q₁ q₂), dyadic_scale s₂ m₂ (min_le_right q₁ q₂),
    ← cmp_eq_compare, ← cmp_eq_compare]
  exact (hScale.cmp_map_eq _ _).symm

theorem lt_iff {x y : Binary64} {a b : ℚ} (hx : x.toRat? = some a) (hy : y.toRat? = some b) :
    x.lt y = true ↔ a < b := by
  rw [lt, order_of_toRat? hx hy, decide_eq_true_iff, Option.some.injEq, compare_lt_iff_lt]

theorem gt_iff {x y : Binary64} {a b : ℚ} (hx : x.toRat? = some a) (hy : y.toRat? = some b) :
    x.gt y = true ↔ b < a := by
  rw [gt, order_of_toRat? hx hy, decide_eq_true_iff, Option.some.injEq, compare_gt_iff_gt]

/-- A finite value compares below an infinity of positive sign. -/
theorem gt_infinity_false {x y : Binary64} {a : ℚ} (hx : x.toRat? = some a)
    (hy : y.kind = .infinite false) : x.gt y = false := by
  obtain ⟨s, m, q, hx, -⟩ := toRat?_eq_some.mp hx
  simp [gt, order, hx, hy]

/-! ## Building patterns -/

/-- The pattern `ofFields` builds decodes to the fields it was built from. -/
theorem kind_ofFields {negative : Bool} {biased fraction : ℕ} (h1 : 0 < biased)
    (h2 : biased < 2047) (hf : fraction < 2 ^ 52) :
    (ofFields negative biased fraction).kind =
      .finite negative (fraction + 2 ^ 52) ((biased : ℤ) - 1075) := by
  have hN : (if negative then 2 ^ 63 else 0) + biased * 2 ^ 52 + fraction < 2 ^ 64 := by
    split <;> omega
  have hBits : (ofFields negative biased fraction).bits.toNat =
      (if negative then 2 ^ 63 else 0) + biased * 2 ^ 52 + fraction := by
    simp only [ofFields, Nat.pow_eq, UInt64.toNat_ofNat', Nat.mod_eq_of_lt hN]
  have hFraction : (ofFields negative biased fraction).fraction = fraction := by
    unfold Binary64.fraction; rw [hBits, Nat.pow_eq]; split <;> omega
  have hBiased : (ofFields negative biased fraction).biased = biased := by
    unfold Binary64.biased; rw [hBits, Nat.pow_eq, Nat.pow_eq]; split <;> omega
  have hSign : (ofFields negative biased fraction).sign = negative := by
    unfold sign; rw [hBits]; cases negative <;> simp <;> omega
  unfold kind
  rw [hBiased, hFraction, hSign, if_neg (by omega), if_neg (by omega), Nat.pow_eq]

theorem kind_zero (negative : Bool) : (zero negative).kind = .finite negative 0 (-1074) := by
  cases negative <;> decide

theorem kind_infinity (negative : Bool) : (infinity negative).kind = .infinite negative := by
  cases negative <;> decide

@[simp] theorem toRat?_zero (negative : Bool) : (zero negative).toRat? = some 0 := by
  rw [toRat?_of_kind (kind_zero negative)]
  cases negative <;> simp [dyadic]

/-- A value is negative exactly when the number it denotes is below zero; `-0` is not. -/
theorem isNegative_iff {x : Binary64} {a : ℚ} (hx : x.toRat? = some a) :
    x.isNegative = true ↔ a < 0 :=
  lt_iff hx (toRat?_zero false)

/-! ## Rounding natural numbers -/

theorem roundHalfEven_one (a : ℕ) : roundHalfEven a 1 = a := by
  simp [roundHalfEven, Nat.mod_one]

/-- A quotient that is exact needs no rounding. -/
theorem roundHalfEven_of_dvd {a b : ℕ} (hb : 0 < b) (h : b ∣ a) : roundHalfEven a b = a / b := by
  simp [roundHalfEven, Nat.mod_eq_zero_of_dvd h, hb]

/-- Rounding to nearest lands on the quotient or one above it. -/
theorem roundHalfEven_bounds (a b : ℕ) : a / b ≤ roundHalfEven a b ∧ roundHalfEven a b ≤ a / b + 1 := by
  unfold roundHalfEven
  dsimp only
  split_ifs <;> omega

/-- The tail of rounding: a significand `s` with exponent `q`, a carry to `2 ^ 53` moving into
the next binade, overflow past the largest exponent giving infinity. -/
def pack (negative : Bool) (s : ℕ) (q : ℤ) : Binary64 :=
  let (s, q) := if s = 2 ^ 53 then (2 ^ 52, q + 1) else (s, q)
  if s = 0 then zero negative
  else if 971 < q then infinity negative
  else if s < 2 ^ 52 then ofFields negative 0 s
  else ofFields negative (q + 1075).toNat (s - 2 ^ 52)

/-- **A normal significand keeps its value**, `s · 2 ^ q`, unless the exponent overflows. -/
theorem pack_cases {s : ℕ} {q : ℤ} (hs1 : 2 ^ 52 ≤ s) (hs2 : s ≤ 2 ^ 53) (hq : -1022 ≤ q) :
    ((pack false s q).kind = .infinite false ∧ 971 ≤ q) ∨
      (pack false s q).toRat? = some ((s : ℚ) * 2 ^ q) := by
  unfold pack
  by_cases hCarry : s = 2 ^ 53
  · -- the rounding carried into the next binade: `2 ^ 52 · 2 ^ (q + 1)`
    subst hCarry
    simp only [if_true]
    by_cases hOver : 971 < q + 1
    · left
      simp only [hOver, if_true, if_neg (by norm_num : (2 : ℕ) ^ 52 ≠ 0)]
      exact ⟨kind_infinity false, by omega⟩
    · right
      simp only [hOver, if_false, if_neg (by norm_num : (2 : ℕ) ^ 52 ≠ 0), lt_irrefl, Nat.sub_self]
      rw [toRat?_of_kind (kind_ofFields (by omega) (by omega) (by norm_num))]
      simp only [dyadic, Bool.false_eq_true, if_false]
      rw [show (((q + 1 + 1075).toNat : ℕ) : ℤ) - 1075 = q + 1 by omega, zpow_add₀ (by norm_num)]
      congr 1
      push_cast
      ring
  · simp only [hCarry, if_false, if_neg (by omega : s ≠ 0), if_neg (by omega : ¬ s < 2 ^ 52)]
    by_cases hOver : 971 < q
    · left
      simp only [hOver, if_true]
      exact ⟨kind_infinity false, by omega⟩
    · right
      simp only [hOver, if_false]
      rw [toRat?_of_kind (kind_ofFields (by omega) (by omega) (by omega))]
      simp only [dyadic, Bool.false_eq_true, if_false]
      rw [show s - 2 ^ 52 + 2 ^ 52 = s by omega,
        show (((q + 1075).toNat : ℕ) : ℤ) - 1075 = q by omega]

/-- How `ofNat` rounds a positive integer `n` with `e = log2 n`: to the significand
`n · 2 ^ (52 - e)` when that is exact, else to `n / 2 ^ (e - 52)` rounded, with exponent
`e - 52`. -/
theorem ofNat_eq_pack {n : ℕ} (hn : n ≠ 0) :
    ofNat n = pack false (if n.log2 ≤ 52 then n * 2 ^ (52 - n.log2)
      else roundHalfEven n (2 ^ (n.log2 - 52))) ((n.log2 : ℤ) - 52) := by
  have hLog1 : Nat.log2 1 = 0 := by decide
  have hLe : 2 ^ n.log2 ≤ n := Nat.log2_self_le hn
  -- the estimate `log2 n - log2 1` of the exponent is exact, and no subnormal is involved
  have hNotLt : ¬ n * 1 < 2 ^ n.log2 * 1 := by omega
  have hMax : max ((n.log2 : ℤ) - 52) (-1074) = n.log2 - 52 := by omega
  unfold ofNat nearest
  simp only [scaled, Nat.pow_eq, hLog1, Nat.cast_zero, sub_zero, Nat.cast_nonneg, if_true,
    Int.toNat_natCast, one_mul, hNotLt, if_false, hMax, hn, false_or, one_ne_zero]
  by_cases hE : n.log2 ≤ 52
  · rw [if_pos hE]
    by_cases hE52 : n.log2 = 52
    · simp [hE52, roundHalfEven_one, pack]
    · rw [if_neg (by omega : ¬ (0 : ℤ) ≤ (n.log2 : ℤ) - 52)]
      simp only [roundHalfEven_one]
      rw [show (-((n.log2 : ℤ) - 52)).toNat = 52 - n.log2 by omega]
      rfl
  · rw [if_neg hE, if_pos (by omega : (0 : ℤ) ≤ (n.log2 : ℤ) - 52)]
    rw [show ((n.log2 : ℤ) - 52).toNat = n.log2 - 52 by omega]
    rfl

/-- The binary logarithm bounds a positive integer. -/
private theorem log2_bounds {n : ℕ} (hn : n ≠ 0) : 2 ^ n.log2 ≤ n ∧ n < 2 ^ (n.log2 + 1) :=
  ⟨Nat.log2_self_le hn, Nat.lt_log2_self⟩

/-- **Integers up to `2 ^ 53` are exact.** -/
theorem toRat?_ofNat {n : ℕ} (hn : n ≤ 2 ^ 53) : (ofNat n).toRat? = some (n : ℚ) := by
  rcases Nat.eq_zero_or_pos n with rfl | hPos
  · have hZero : ofNat 0 = zero false := by simp [ofNat, nearest]
    simp [hZero]
  obtain ⟨hLe, hLt⟩ := log2_bounds (Nat.pos_iff_ne_zero.mp hPos)
  rw [ofNat_eq_pack (by omega)]
  by_cases hE : n.log2 ≤ 52
  · -- the significand `n · 2 ^ (52 - e)` is normal and exact
    have hPow : 2 ^ n.log2 * 2 ^ (52 - n.log2) = 2 ^ 52 := by
      rw [← Nat.pow_add]; congr 1; omega
    have hS1 : 2 ^ 52 ≤ n * 2 ^ (52 - n.log2) := hPow ▸ Nat.mul_le_mul_right _ hLe
    have hS2 : n * 2 ^ (52 - n.log2) < 2 ^ 53 := by
      have hTop : 2 ^ (n.log2 + 1) * 2 ^ (52 - n.log2) = 2 ^ 53 := by
        rw [← Nat.pow_add]; congr 1; omega
      exact hTop ▸ Nat.mul_lt_mul_of_pos_right hLt (by positivity)
    rw [if_pos hE]
    rcases pack_cases (q := (n.log2 : ℤ) - 52) hS1 hS2.le (by omega) with ⟨-, hOver⟩ | hValue
    · omega
    rw [hValue]
    congr 1
    push_cast
    rw [mul_assoc, ← zpow_natCast, ← zpow_add₀ (by norm_num : (2 : ℚ) ≠ 0),
      show ((52 - n.log2 : ℕ) : ℤ) + ((n.log2 : ℤ) - 52) = 0 by omega, zpow_zero, mul_one]
  · -- only `2 ^ 53` itself is left: `2 ^ 52 · 2 ^ 1`
    have hn53 : n = 2 ^ 53 :=
      le_antisymm hn (le_trans (Nat.pow_le_pow_right (by norm_num) (by omega)) hLe)
    subst hn53
    rw [if_neg hE, Nat.log2_two_pow, roundHalfEven_of_dvd (by positivity) (Nat.pow_dvd_pow 2 (by norm_num))]
    rcases pack_cases (s := 2 ^ 53 / 2 ^ (53 - 52)) (q := ((53 : ℕ) : ℤ) - 52) (by norm_num)
      (by norm_num) (by norm_num) with ⟨-, hOver⟩ | hValue
    · norm_num at hOver
    rw [hValue]
    norm_num

/-- **Integers from `2 ^ 53` on round to at least `2 ^ 53`**, or overflow to infinity. -/
theorem ofNat_large {n : ℕ} (hn : 2 ^ 53 ≤ n) :
    (ofNat n).kind = .infinite false ∨ ∃ v, (ofNat n).toRat? = some v ∧ 2 ^ 53 ≤ v := by
  obtain ⟨hLe, hLt⟩ := log2_bounds (by omega : n ≠ 0)
  have hE : 53 ≤ n.log2 := by
    by_contra hSmall
    have : 2 ^ (n.log2 + 1) ≤ 2 ^ 53 := Nat.pow_le_pow_right (by norm_num) (by omega)
    omega
  -- the quotient `n / 2 ^ (e - 52)` is a normal significand, and rounding adds at most one
  have hSplit : 2 ^ n.log2 = 2 ^ 52 * 2 ^ (n.log2 - 52) := by rw [← Nat.pow_add]; congr 1; omega
  have hSplit' : 2 ^ (n.log2 + 1) = 2 ^ 53 * 2 ^ (n.log2 - 52) := by
    rw [← Nat.pow_add]; congr 1; omega
  have hQ1 : 2 ^ 52 ≤ n / 2 ^ (n.log2 - 52) := (Nat.le_div_iff_mul_le (by positivity)).mpr (hSplit ▸ hLe)
  have hQ2 : n / 2 ^ (n.log2 - 52) < 2 ^ 53 := (Nat.div_lt_iff_lt_mul (by positivity)).mpr (hSplit' ▸ hLt)
  obtain ⟨hR1, hR2⟩ := roundHalfEven_bounds n (2 ^ (n.log2 - 52))
  rw [ofNat_eq_pack (by omega), if_neg (by omega)]
  rcases pack_cases (q := (n.log2 : ℤ) - 52) (by omega : 2 ^ 52 ≤ roundHalfEven n (2 ^ (n.log2 - 52)))
    (by omega) (by omega) with ⟨hInf, -⟩ | hValue
  · exact .inl hInf
  · refine .inr ⟨_, hValue, ?_⟩
    have hPow : (2 : ℚ) ≤ 2 ^ ((n.log2 : ℤ) - 52) := by
      calc (2 : ℚ) = 2 ^ (1 : ℤ) := by norm_num
        _ ≤ 2 ^ ((n.log2 : ℤ) - 52) := zpow_le_zpow_right₀ (by norm_num) (by omega)
    have hS : (2 ^ 52 : ℚ) ≤ (roundHalfEven n (2 ^ (n.log2 - 52)) : ℚ) := by exact_mod_cast (by omega)
    calc (2 ^ 53 : ℚ) = 2 ^ 52 * 2 := by norm_num
      _ ≤ _ := mul_le_mul hS hPow (by norm_num) (by positivity)

end Binary64

end Transcode
