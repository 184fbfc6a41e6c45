import Mathlib.Data.Int.Log
import Transcode.Decimal.Reading
import Transcode.Decimal.Shortest
import Transcode.Proofs.Binary64.Value

/-!
# Rounding to the nearest binary64 value

`Binary64.nearest` rounds a positive ratio `r = num / den` in three steps: it finds the binary
exponent `⌊log₂ r⌋` from the bit lengths, keeps 53 significant bits (fewer below the normal
range, where the last kept bit has the fixed exponent `-1074`), and rounds the scaled ratio to the
nearest integer, a tie going to the even one. This module proves that the three steps round
correctly.

The statement is about the *rounding interval* of a positive finite value `x = m · 2 ^ q`
(`Decimal.Interval.around`): the reals half-way to each neighbour, where the gap below a power of
two that starts a binade above the subnormals is half the gap above, and whose ends belong to it
when `m` is even, since a tie goes to the even significand. A ratio rounds to `x` exactly when it
lies in that interval. The same interval is the one the shortest-digits search works in, so the
search and the reader of decimals agree on what reads back as `x`.

## Main results

* `Binary64.eq_of_kind_eq`: a pattern other than a NaN is determined by what it denotes.
* `Binary64.roundHalfEven_eq_iff`: `roundHalfEven a b` is the integer nearest to `a / b`.
* `Binary64.nearest_eq_pack`: `nearest` packs that integer at the exponent `quantum r`.
* `Binary64.nearest_eq_iff`: `nearest` gives `x` exactly on the rounding interval of `x`.
* `Binary64.ofDecimal_eq_iff`: a decimal literal reads as `x` exactly when its value lies in the
  rounding interval of `x`.
-/

namespace Transcode

namespace Binary64

/-! ## Patterns and their fields -/

theorem fraction_lt (x : Binary64) : x.fraction < 2 ^ 52 := by
  unfold fraction
  simp only [Nat.pow_eq]
  exact Nat.mod_lt _ (by positivity)

theorem biased_lt (x : Binary64) : x.biased < 2 ^ 11 := by
  unfold biased
  simp only [Nat.pow_eq]
  exact Nat.mod_lt _ (by positivity)

/-- A pattern is its sign bit, its eleven exponent bits and its 52 fraction bits. -/
theorem bits_toNat_eq (x : Binary64) :
    x.bits.toNat = (if x.sign then 2 ^ 63 else 0) + x.biased * 2 ^ 52 + x.fraction := by
  have hLt : x.bits.toNat < 2 ^ 64 := x.bits.toNat_lt
  unfold sign biased fraction
  simp only [Nat.pow_eq, Nat.reducePow, decide_eq_true_eq]
  split <;> omega

/-- The fields `ofFields` writes are read back, when each fits its width. -/
theorem fields_ofFields {negative : Bool} {biased fraction : ℕ} (hb : biased < 2 ^ 11)
    (hf : fraction < 2 ^ 52) :
    (ofFields negative biased fraction).sign = negative ∧
      (ofFields negative biased fraction).biased = biased ∧
      (ofFields negative biased fraction).fraction = fraction := by
  have hN : (if negative then 2 ^ 63 else 0) + biased * 2 ^ 52 + fraction < 2 ^ 64 := by
    split <;> omega
  have hBits : (ofFields negative biased fraction).bits.toNat =
      (if negative then 2 ^ 63 else 0) + biased * 2 ^ 52 + fraction := by
    simp only [ofFields, Nat.pow_eq, UInt64.toNat_ofNat', Nat.mod_eq_of_lt hN]
  unfold sign Binary64.biased Binary64.fraction
  rw [hBits]
  simp only [Nat.pow_eq, Nat.reducePow] at hb hf ⊢
  cases negative <;> simp <;> omega

/-- What the kind of a finite value says about its fields: a zero biased exponent is a subnormal
with exponent `-1074`, any other one below `2047` adds the hidden bit. -/
theorem kind_eq_finite_iff {x : Binary64} {negative : Bool} {m : ℕ} {q : ℤ} :
    x.kind = .finite negative m q ↔ x.sign = negative ∧ x.biased < 2047 ∧
      ((x.biased = 0 ∧ m = x.fraction ∧ q = -1074) ∨
        (0 < x.biased ∧ m = x.fraction + 2 ^ 52 ∧ q = x.biased - 1075)) := by
  have hb := x.biased_lt
  unfold kind
  by_cases hTop : x.biased = 2047
  · simp only [hTop, if_true, lt_irrefl, false_and, and_false, iff_false]
    split <;> simp
  · by_cases hZero : x.biased = 0
    · simp only [hZero, if_true]
      constructor
      · rintro ⟨rfl, rfl, rfl⟩
        simp
      · rintro ⟨rfl, -, ⟨-, rfl, rfl⟩ | ⟨h, -⟩⟩
        · simp
        · omega
    · simp only [hTop, hZero, if_false, Kind.finite.injEq, Nat.pow_eq]
      constructor
      · rintro ⟨rfl, rfl, rfl⟩
        exact ⟨rfl, by omega, .inr ⟨by omega, rfl, rfl⟩⟩
      · rintro ⟨rfl, -, ⟨h, -⟩ | ⟨-, rfl, rfl⟩⟩
        · exact h.elim
        · simp

theorem kind_eq_infinite_iff {x : Binary64} {negative : Bool} :
    x.kind = .infinite negative ↔ x.sign = negative ∧ x.biased = 2047 ∧ x.fraction = 0 := by
  unfold kind
  by_cases hTop : x.biased = 2047
  · by_cases hf : x.fraction = 0 <;> simp [hTop, hf, eq_comm]
  · by_cases hZero : x.biased = 0 <;> simp [hTop, hZero]

/-- The significand and exponent of a finite value: a subnormal below `2 ^ 52` at `-1074`, or a
normal significand of 53 bits at an exponent from `-1074` to `971`. -/
theorem kind_finite_bounds {x : Binary64} {negative : Bool} {m : ℕ} {q : ℤ}
    (h : x.kind = .finite negative m q) :
    (q = -1074 ∧ m < 2 ^ 52) ∨ (2 ^ 52 ≤ m ∧ m < 2 ^ 53 ∧ -1074 ≤ q ∧ q ≤ 971) := by
  have hf := x.fraction_lt
  obtain ⟨-, hTop, ⟨-, rfl, rfl⟩ | ⟨hPos, rfl, rfl⟩⟩ := kind_eq_finite_iff.mp h
  · exact .inl ⟨rfl, hf⟩
  · exact .inr ⟨by omega, by omega, by omega, by omega⟩

/-- **A pattern other than a NaN is determined by what it denotes**: its sign, and its
significand and exponent or its being infinite. -/
theorem eq_of_kind_eq {x y : Binary64} (h : x.kind = y.kind) (hNaN : x.kind ≠ .nan) : x = y := by
  have hx := x.fraction_lt
  have hy := y.fraction_lt
  -- the three fields agree, so the bits do
  have hFields : x.sign = y.sign ∧ x.biased = y.biased ∧ x.fraction = y.fraction := by
    cases hKind : x.kind with
    | nan => exact absurd hKind hNaN
    | infinite negative =>
      obtain ⟨hs, hb, hf⟩ := kind_eq_infinite_iff.mp hKind
      obtain ⟨hs', hb', hf'⟩ := kind_eq_infinite_iff.mp (h ▸ hKind)
      exact ⟨hs.trans hs'.symm, hb.trans hb'.symm, hf.trans hf'.symm⟩
    | finite negative m q =>
      obtain ⟨hs, -, hx'⟩ := kind_eq_finite_iff.mp hKind
      obtain ⟨hs', -, hy'⟩ := kind_eq_finite_iff.mp (h ▸ hKind)
      refine ⟨hs.trans hs'.symm, ?_⟩
      rcases hx' with ⟨h0, rfl, rfl⟩ | ⟨h0, rfl, hq⟩ <;>
        rcases hy' with ⟨h0', hm', hq'⟩ | ⟨h0', hm', hq'⟩ <;> omega
  obtain ⟨hs, hb, hf⟩ := hFields
  have hBits : x.bits.toNat = y.bits.toNat := by
    rw [bits_toNat_eq, bits_toNat_eq, hs, hb, hf]
  cases x
  cases y
  simp only [Binary64.mk.injEq]
  exact UInt64.toNat_inj.mp hBits

theorem kind_ofFields_subnormal {negative : Bool} {fraction : ℕ} (hf : fraction < 2 ^ 52) :
    (ofFields negative 0 fraction).kind = .finite negative fraction (-1074) := by
  obtain ⟨hs, hb, hfr⟩ := @fields_ofFields negative 0 fraction (by norm_num) hf
  exact kind_eq_finite_iff.mpr ⟨hs, by omega, .inl ⟨hb, hfr.symm, rfl⟩⟩

/-! ## Rounding a quotient to an integer -/

/-- `t` lies in the rounding interval of the integer `s`: above `s - below` and below
`s + 1 / 2`, an end counting when `s` is even. -/
def Rounds (t : ℚ) (s : ℕ) (below : ℚ) : Prop :=
  (s - below < t ∨ Even s ∧ s - below = t) ∧ (t < s + 1 / 2 ∨ Even s ∧ t = s + 1 / 2)

/-- `s` is an integer nearest to `t`; of two equally near, the even one. -/
def NearestEven (t : ℚ) (s : ℕ) : Prop := |t - s| < 1 / 2 ∨ (|t - s| = 1 / 2 ∧ Even s)

theorem NearestEven.abs_sub_le {t : ℚ} {s : ℕ} (h : NearestEven t s) : |t - s| ≤ 1 / 2 := by
  rcases h with h | ⟨h, -⟩
  · exact h.le
  · exact h.le

/-- The same condition read as an interval around `s`, half a unit on each side. -/
theorem nearestEven_iff {t : ℚ} {s : ℕ} : NearestEven t s ↔ Rounds t s (1 / 2) := by
  unfold NearestEven Rounds
  constructor
  · rintro (h | ⟨h, hEven⟩)
    · rw [abs_lt] at h
      exact ⟨.inl (by linarith), .inl (by linarith)⟩
    · rcases (abs_eq (by norm_num : (0 : ℚ) ≤ 1 / 2)).mp h with h | h
      · exact ⟨.inl (by linarith), .inr ⟨hEven, by linarith⟩⟩
      · exact ⟨.inr ⟨hEven, by linarith⟩, .inl (by linarith)⟩
  · rintro ⟨hLow | ⟨hEven, hLow⟩, hHigh | ⟨hEven', hHigh⟩⟩
    · left
      rw [abs_lt]
      constructor <;> linarith
    · right
      refine ⟨?_, hEven'⟩
      rw [hHigh]
      norm_num
    · right
      refine ⟨?_, hEven⟩
      rw [← hLow]
      norm_num
    · exfalso
      linarith

/-- At most one integer is nearest: two within half a unit of `t` are at most one apart, and
two that are one apart are not both even. -/
theorem NearestEven.unique {t : ℚ} {s₁ s₂ : ℕ} (h₁ : NearestEven t s₁) (h₂ : NearestEven t s₂) :
    s₁ = s₂ := by
  have hDist : |(s₁ : ℚ) - s₂| ≤ |t - s₁| + |t - s₂| := by
    calc |(s₁ : ℚ) - s₂| = |(t - s₂) - (t - s₁)| := by ring_nf
      _ ≤ |t - s₂| + |t - s₁| := abs_sub _ _
      _ = |t - s₁| + |t - s₂| := add_comm _ _
  have hOne : |(s₁ : ℚ) - s₂| ≤ 1 := by linarith [h₁.abs_sub_le, h₂.abs_sub_le]
  rw [abs_le] at hOne
  have hLe : s₁ ≤ s₂ + 1 := by exact_mod_cast (by linarith : (s₁ : ℚ) ≤ s₂ + 1)
  have hGe : s₂ ≤ s₁ + 1 := by exact_mod_cast (by linarith : (s₂ : ℚ) ≤ s₁ + 1)
  by_cases hTies : |t - s₁| = 1 / 2 ∧ |t - s₂| = 1 / 2
  · -- two ties: both even
    have hEven₁ : Even s₁ := by
      rcases h₁ with h | ⟨-, h⟩
      · exact absurd hTies.1 h.ne
      · exact h
    have hEven₂ : Even s₂ := by
      rcases h₂ with h | ⟨-, h⟩
      · exact absurd hTies.2 h.ne
      · exact h
    obtain ⟨a, rfl⟩ := hEven₁
    obtain ⟨b, rfl⟩ := hEven₂
    omega
  · -- otherwise one of them is strictly nearer than half a unit
    have hStrict : |t - s₁| + |t - s₂| < 1 := by
      rcases not_and_or.mp hTies with h | h
      · have := lt_of_le_of_ne h₁.abs_sub_le h
        linarith [h₂.abs_sub_le]
      · have := lt_of_le_of_ne h₂.abs_sub_le h
        linarith [h₁.abs_sub_le]
    have hLt := lt_of_le_of_lt hDist hStrict
    rw [abs_lt] at hLt
    have hLt₁ : s₁ < s₂ + 1 := by exact_mod_cast (by linarith : (s₁ : ℚ) < s₂ + 1)
    have hLt₂ : s₂ < s₁ + 1 := by exact_mod_cast (by linarith : (s₂ : ℚ) < s₁ + 1)
    omega

/-- **`roundHalfEven a b` is the integer nearest to `a / b`**, a tie going to the even one. -/
theorem nearestEven_roundHalfEven {a b : ℕ} (hb : b ≠ 0) :
    NearestEven ((a : ℚ) / b) (roundHalfEven a b) := by
  have hbq : (0 : ℚ) < b := by exact_mod_cast Nat.pos_of_ne_zero hb
  have hr : a % b < b := Nat.mod_lt _ (Nat.pos_of_ne_zero hb)
  -- `a / b` is the quotient plus the share `f` of the remainder, `0 ≤ f < 1`
  have hSplit : (a : ℚ) / b = (a / b : ℕ) + ((a % b : ℕ) : ℚ) / b := by
    have hEq : ((b * (a / b) + a % b : ℕ) : ℚ) = a := by exact_mod_cast Nat.div_add_mod a b
    push_cast at hEq
    field_simp
    linarith
  set f : ℚ := ((a % b : ℕ) : ℚ) / b with hf
  have hf0 : 0 ≤ f := by positivity
  have hf1 : f < 1 := by
    rw [hf, div_lt_one hbq]
    exact_mod_cast hr
  -- `roundHalfEven` compares `2 (a % b)` with `b`, that is `f` with one half
  have hHalf : f - 1 / 2 = (((2 * (a % b) : ℕ) : ℚ) - b) / (2 * b) := by
    rw [hf]
    field_simp
    push_cast
    ring
  have hPos : (0 : ℚ) < 2 * b := by positivity
  rw [nearestEven_iff, hSplit]
  unfold Rounds roundHalfEven
  dsimp only
  split_ifs with hBelow hAbove hEven
  · have hLt : ((2 * (a % b) : ℕ) : ℚ) < b := by exact_mod_cast hBelow
    have : f - 1 / 2 < 0 := by rw [hHalf]; exact div_neg_of_neg_of_pos (by linarith) hPos
    exact ⟨.inl (by linarith), .inl (by linarith)⟩
  · have hGt : (b : ℚ) < ((2 * (a % b) : ℕ) : ℚ) := by exact_mod_cast hAbove
    have : 0 < f - 1 / 2 := by rw [hHalf]; exact div_pos (by linarith) hPos
    push_cast
    exact ⟨.inl (by linarith), .inl (by linarith)⟩
  · -- a tie, and the quotient is even
    have hTie : ((2 * (a % b) : ℕ) : ℚ) = b := by exact_mod_cast (by omega : 2 * (a % b) = b)
    have : f - 1 / 2 = 0 := by rw [hHalf, hTie, sub_self, zero_div]
    exact ⟨.inl (by linarith), .inr ⟨Nat.even_iff.mpr hEven, by linarith⟩⟩
  · -- a tie, and the quotient is odd: the next one up is even
    have hTie : ((2 * (a % b) : ℕ) : ℚ) = b := by exact_mod_cast (by omega : 2 * (a % b) = b)
    have : f - 1 / 2 = 0 := by rw [hHalf, hTie, sub_self, zero_div]
    have hOdd : ¬Even (a / b) := fun h => hEven (Nat.even_iff.mp h)
    push_cast
    exact ⟨.inr ⟨Nat.even_add_one.mpr hOdd, by linarith⟩, .inl (by linarith)⟩

theorem roundHalfEven_eq_iff {a b s : ℕ} (hb : b ≠ 0) :
    roundHalfEven a b = s ↔ NearestEven ((a : ℚ) / b) s :=
  ⟨fun h => h ▸ nearestEven_roundHalfEven hb, (nearestEven_roundHalfEven hb).unique⟩

/-! ## The exponent of the last kept bit -/

/-- A number between two consecutive powers of `b` has the lower one's exponent as its
logarithm. -/
theorem log_eq_of_bounds {b : ℕ} {z : ℤ} {r : ℚ} (hb : 1 < b) (hLow : (b : ℚ) ^ z ≤ r)
    (hHigh : r < (b : ℚ) ^ (z + 1)) : Int.log b r = z := by
  have hr : 0 < r := lt_of_lt_of_le (zpow_pos (by exact_mod_cast (by omega : 0 < b)) z) hLow
  have hLe := (Int.zpow_le_iff_le_log hb hr).mp hLow
  have hLt := (Int.lt_zpow_iff_log_lt hb hr).mp hHigh
  omega

theorem log_two_eq_of_bounds {z : ℤ} {r : ℚ} (hLow : (2 : ℚ) ^ z ≤ r) (hHigh : r < 2 ^ (z + 1)) :
    Int.log 2 r = z :=
  log_eq_of_bounds (by norm_num) (by exact_mod_cast hLow) (by exact_mod_cast hHigh)

/-- `scaled a e` is `a · 2 ^ e` as a fraction with a positive denominator. -/
theorem scaled_div (a : ℕ) (e : ℤ) :
    ((scaled a e).1 : ℚ) / (scaled a e).2 = a * 2 ^ e ∧ (scaled a e).2 ≠ 0 := by
  unfold scaled
  split_ifs with he
  · simp [natCast_mul_zpow_of_nonneg a he, Nat.pow_eq]
  · simp [natCast_mul_zpow_of_neg a (by omega : e < 0), Nat.pow_eq]

/-- The binary exponent `⌊log₂ (num / den)⌋` as `nearest` finds it: the difference of the bit
lengths, less one when the ratio lies below that power of two. -/
def binaryExponent (num den : ℕ) : ℤ :=
  let e0 : ℤ := (num.log2 : ℤ) - den.log2
  if num * (scaled 1 e0).2 < (scaled 1 e0).1 * den then e0 - 1 else e0

/-- A positive natural number lies between the powers of two its bit length gives. -/
theorem two_zpow_log2_bounds {n : ℕ} (hn : n ≠ 0) :
    (2 : ℚ) ^ (n.log2 : ℤ) ≤ n ∧ (n : ℚ) < 2 ^ ((n.log2 : ℤ) + 1) := by
  have hLe : 2 ^ n.log2 ≤ n := Nat.log2_self_le hn
  have hLt : n < 2 ^ (n.log2 + 1) := Nat.lt_log2_self
  constructor
  · rw [zpow_natCast]
    exact_mod_cast hLe
  · rw [← Nat.cast_one, ← Nat.cast_add, zpow_natCast]
    exact_mod_cast hLt

theorem binaryExponent_eq {num den : ℕ} (hnum : num ≠ 0) (hden : den ≠ 0) :
    binaryExponent num den = Int.log 2 ((num : ℚ) / den) := by
  obtain ⟨hNumLow, hNumHigh⟩ := two_zpow_log2_bounds hnum
  obtain ⟨hDenLow, hDenHigh⟩ := two_zpow_log2_bounds hden
  have hDen : (0 : ℚ) < den := by exact_mod_cast Nat.pos_of_ne_zero hden
  set e0 : ℤ := (num.log2 : ℤ) - den.log2 with he0
  -- the ratio lies within a factor of two of `2 ^ e0`, on either side
  have hLow : (2 : ℚ) ^ (e0 - 1) ≤ num / den := by
    rw [le_div_iff₀ hDen]
    calc (2 : ℚ) ^ (e0 - 1) * den ≤ 2 ^ (e0 - 1) * 2 ^ ((den.log2 : ℤ) + 1) :=
          mul_le_mul_of_nonneg_left hDenHigh.le (zpow_pos (by norm_num) _).le
      _ = 2 ^ (num.log2 : ℤ) := by rw [← zpow_add₀ (by norm_num)]; congr 1; omega
      _ ≤ num := hNumLow
  have hHigh : (num : ℚ) / den < 2 ^ (e0 + 1) := by
    rw [div_lt_iff₀ hDen]
    calc (num : ℚ) < 2 ^ ((num.log2 : ℤ) + 1) := hNumHigh
      _ = 2 ^ (e0 + 1) * 2 ^ (den.log2 : ℤ) := by rw [← zpow_add₀ (by norm_num)]; congr 1; omega
      _ ≤ 2 ^ (e0 + 1) * den := mul_le_mul_of_nonneg_left hDenLow (zpow_pos (by norm_num) _).le
  -- `nearest`'s test compares the ratio with `2 ^ e0`
  obtain ⟨hScaled, hScaledDen⟩ := scaled_div 1 e0
  have hTest : num * (scaled 1 e0).2 < (scaled 1 e0).1 * den ↔ (num : ℚ) / den < 2 ^ e0 := by
    have hD : (0 : ℚ) < (scaled 1 e0).2 := by exact_mod_cast Nat.pos_of_ne_zero hScaledDen
    rw [Nat.cast_one, one_mul] at hScaled
    rw [← hScaled, div_lt_div_iff₀ hDen hD]
    exact_mod_cast Iff.rfl
  show (if num * (scaled 1 e0).2 < (scaled 1 e0).1 * den then e0 - 1 else e0) = _
  split_ifs with hBelow
  · exact (log_two_eq_of_bounds hLow (by rw [sub_add_cancel]; exact hTest.mp hBelow)).symm
  · exact (log_two_eq_of_bounds (not_lt.mp (mt hTest.mpr hBelow)) hHigh).symm

/-- `num / den` over `2 ^ q` as a fraction of natural numbers, as `nearest` forms it. -/
def scaledRatio (num den : ℕ) (q : ℤ) : ℕ × ℕ :=
  if 0 ≤ q then (num, den * Nat.pow 2 q.toNat) else (num * Nat.pow 2 (-q).toNat, den)

theorem scaledRatio_div (num : ℕ) {den : ℕ} (q : ℤ) (hden : den ≠ 0) :
    ((scaledRatio num den q).1 : ℚ) / (scaledRatio num den q).2 = (num : ℚ) / den / 2 ^ q ∧
      (scaledRatio num den q).2 ≠ 0 := by
  unfold scaledRatio
  split_ifs with hq
  · obtain ⟨k, rfl⟩ := Int.eq_ofNat_of_zero_le hq
    refine ⟨?_, by simp [Nat.pow_eq, hden]⟩
    rw [Int.toNat_natCast, zpow_natCast]
    push_cast [Nat.pow_eq]
    rw [div_div]
  · refine ⟨?_, hden⟩
    obtain ⟨k, hk⟩ : ∃ k : ℕ, q = -(k : ℤ) := ⟨(-q).toNat, by omega⟩
    rw [hk, neg_neg, Int.toNat_natCast, zpow_neg, zpow_natCast, div_inv_eq_mul]
    push_cast [Nat.pow_eq]
    ring

/-- The exponent of the last significand bit kept when `r > 0` is rounded: 52 places below the
leading bit, but never below the exponent `-1074` of the subnormals. -/
def quantum (r : ℚ) : ℤ := max (Int.log 2 r - 52) (-1074)

theorem nearest_eq_roundHalfEven {negative : Bool} {num den : ℕ} (hnum : num ≠ 0)
    (hden : den ≠ 0) :
    nearest negative num den =
      pack negative
        (roundHalfEven (scaledRatio num den (max (binaryExponent num den - 52) (-1074))).1
          (scaledRatio num den (max (binaryExponent num den - 52) (-1074))).2)
        (max (binaryExponent num den - 52) (-1074)) := by
  unfold nearest
  simp only [hnum, hden, or_self, if_false]
  rfl

/-- **`nearest` packs the integer nearest to the ratio at the kept exponent**: the rounding of
`r / 2 ^ quantum r`, a tie going to the even significand. -/
theorem nearest_eq_pack {negative : Bool} {num den : ℕ} (hnum : num ≠ 0) (hden : den ≠ 0) :
    ∃ s, NearestEven ((num : ℚ) / den / 2 ^ quantum ((num : ℚ) / den)) s ∧
      nearest negative num den = pack negative s (quantum ((num : ℚ) / den)) := by
  have hq : max (binaryExponent num den - 52) (-1074) = quantum ((num : ℚ) / den) := by
    rw [binaryExponent_eq hnum hden, quantum]
  obtain ⟨hDiv, hPos⟩ := scaledRatio_div num (quantum ((num : ℚ) / den)) hden
  refine ⟨_, ?_, (nearest_eq_roundHalfEven hnum hden).trans (by rw [hq])⟩
  rw [← hDiv]
  exact nearestEven_roundHalfEven hPos

/-! ## What packing builds -/

/-- A significand below `2 ^ 53` that is normal, or subnormal at `-1074`, is packed as it is,
while its exponent does not pass `971`. -/
theorem kind_pack {negative : Bool} {s : ℕ} {q : ℤ} (hs : s ≠ 0) (hs53 : s < 2 ^ 53)
    (hq : -1074 ≤ q) (hq971 : q ≤ 971) (hNormal : 2 ^ 52 ≤ s ∨ q = -1074) :
    (pack negative s q).kind = .finite negative s q := by
  unfold pack
  simp only [if_neg (by omega : s ≠ 2 ^ 53), if_neg hs, if_neg (by omega : ¬971 < q)]
  split_ifs with hSub
  · obtain rfl : q = -1074 := hNormal.resolve_left (by omega)
    exact kind_ofFields_subnormal hSub
  · rw [kind_ofFields (by omega) (by omega) (by omega)]
    congr 1
    · omega
    · omega

/-- A significand that rounded up to `2 ^ 53` is carried into the next binade. -/
theorem kind_pack_carry {negative : Bool} {q : ℤ} (hq : -1074 ≤ q) (hq971 : q + 1 ≤ 971) :
    (pack negative (2 ^ 53) q).kind = .finite negative (2 ^ 52) (q + 1) := by
  unfold pack
  simp only [if_true, if_neg (by norm_num : (2 : ℕ) ^ 52 ≠ 0), if_neg (by omega : ¬971 < q + 1),
    lt_irrefl, if_false, Nat.sub_self]
  rw [kind_ofFields (by omega) (by omega) (by norm_num)]
  congr 1
  omega

/-- What a finite nonzero packed value comes from: its own significand, or a carry. -/
theorem pack_cases_of_kind {negative negative' : Bool} {s m : ℕ} {q q' : ℤ}
    (h : (pack negative s q).kind = .finite negative' m q') (hm : m ≠ 0) (hs : s ≤ 2 ^ 53)
    (hq : -1074 ≤ q) (hNormal : 2 ^ 52 ≤ s ∨ q = -1074) :
    (s = 2 ^ 53 ∧ m = 2 ^ 52 ∧ q' = q + 1) ∨ (s < 2 ^ 53 ∧ m = s ∧ q' = q) := by
  -- an infinity or a zero is not such a value
  have hInf : ∀ n, (infinity n).kind ≠ .finite negative' m q' := by
    intro n h'
    rw [kind_infinity] at h'
    cases h'
  have hZero : ∀ n, (zero n).kind ≠ .finite negative' m q' := by
    intro n h'
    rw [kind_zero] at h'
    cases h'
    exact hm rfl
  by_cases hCarry : s = 2 ^ 53
  · subst hCarry
    by_cases hOver : 971 < q + 1
    · unfold pack at h
      simp only [if_true, if_neg (by norm_num : (2 : ℕ) ^ 52 ≠ 0), hOver] at h
      exact absurd h (hInf negative)
    · rw [kind_pack_carry hq (by omega)] at h
      cases h
      exact .inl ⟨rfl, rfl, rfl⟩
  · by_cases hZeroS : s = 0
    · unfold pack at h
      simp only [hZeroS] at h
      exact absurd h (hZero negative)
    by_cases hOver : 971 < q
    · unfold pack at h
      simp only [if_neg hCarry, if_neg hZeroS, hOver, if_true] at h
      exact absurd h (hInf negative)
    · rw [kind_pack hZeroS (by omega) hq (by omega) hNormal] at h
      cases h
      exact .inr ⟨by omega, rfl, rfl⟩

end Binary64

/-! ## The rounding interval -/

namespace Decimal

/-- The rounding interval of `m · 2 ^ q`, the one `shortest` searches: in units of `2 ^ (q - 2)`
it runs from `4m - 2` (`4m - 1` when the gap below is narrow) to `4m + 2`. -/
def Interval.around (m : ℕ) (q : ℤ) (narrowBelow : Bool) : Interval :=
  { low := if narrowBelow then 4 * m - 1 else 4 * m - 2
    value := 4 * m
    high := 4 * m + 2
    closed := m % 2 = 0
    scale := q - 2 }

theorem shortest_eq (m : ℕ) (q : ℤ) (narrowBelow : Bool) :
    shortest m q narrowBelow = (Interval.around m q narrowBelow).search (exponentOf m q) 1 17 :=
  rfl

/-- Whether a rational number lies in the interval. -/
def Interval.Mem (iv : Interval) (r : ℚ) : Prop :=
  ((iv.low : ℚ) * 2 ^ iv.scale < r ∨ iv.closed ∧ (iv.low : ℚ) * 2 ^ iv.scale = r) ∧
    (r < (iv.high : ℚ) * 2 ^ iv.scale ∨ iv.closed ∧ r = (iv.high : ℚ) * 2 ^ iv.scale)

/-- In units of `2 ^ q` the interval around `m · 2 ^ q` reaches half a unit above `m` and half a
unit below, or a quarter when the gap below is narrow. -/
theorem mem_around_iff {m : ℕ} {q : ℤ} {narrowBelow : Bool} {r : ℚ} (hm : m ≠ 0) :
    (Interval.around m q narrowBelow).Mem r ↔
      Binary64.Rounds (r / 2 ^ q) m (if narrowBelow then 1 / 4 else 1 / 2) := by
  have hPow : (0 : ℚ) < 2 ^ q := zpow_pos (by norm_num) q
  have hScale : (2 : ℚ) ^ (q - 2) = 2 ^ q / 4 := by
    rw [zpow_sub₀ (by norm_num)]
    norm_num
  have hLow : ((Interval.around m q narrowBelow).low : ℚ) * 2 ^ (Interval.around m q narrowBelow).scale =
      (m - (if narrowBelow then 1 / 4 else 1 / 2)) * 2 ^ q := by
    simp only [Interval.around, hScale]
    split_ifs
    · rw [Nat.cast_sub (by omega)]
      push_cast
      ring
    · rw [Nat.cast_sub (by omega)]
      push_cast
      ring
  have hHigh : ((Interval.around m q narrowBelow).high : ℚ) *
      2 ^ (Interval.around m q narrowBelow).scale = (m + 1 / 2) * 2 ^ q := by
    simp only [Interval.around, hScale]
    push_cast
    ring
  have hClosed : (Interval.around m q narrowBelow).closed = true ↔ Even m := by
    simp [Interval.around, Nat.even_iff]
  unfold Interval.Mem Binary64.Rounds
  rw [hLow, hHigh, hClosed, ← lt_div_iff₀ hPow, ← eq_div_iff hPow.ne', ← div_lt_iff₀ hPow,
    ← div_eq_iff hPow.ne']

end Decimal

namespace Binary64

/-- The gap below `x` is half the gap above exactly at a normal power of two above the least
normal binade. -/
theorem narrowBelow_iff {x : Binary64} {negative : Bool} {m : ℕ} {q : ℤ}
    (hx : x.kind = .finite negative m q) :
    (m = Nat.pow 2 52 && 1 < x.biased) = true ↔ m = 2 ^ 52 ∧ -1074 < q := by
  have hf := x.fraction_lt
  obtain ⟨-, -, ⟨hb, rfl, rfl⟩ | ⟨hb, rfl, rfl⟩⟩ := kind_eq_finite_iff.mp hx
  · simp only [Nat.pow_eq, Bool.and_eq_true, decide_eq_true_eq]
    omega
  · simp only [Nat.pow_eq, Bool.and_eq_true, decide_eq_true_eq]
    omega

/-- The kept exponent of a ratio in `[2 ^ (q + 52), 2 ^ (q + 53))`, or below `2 ^ (q + 53)` for
the subnormal exponent `q = -1074`, is `q`. -/
theorem quantum_eq {q : ℤ} {r : ℚ} (hq : -1074 ≤ q) (hr : 0 < r) (hHigh : r < 2 ^ (q + 53))
    (hLow : 2 ^ (q + 52) ≤ r ∨ q = -1074) : quantum r = q := by
  unfold quantum
  rcases hLow with hLow | rfl
  · rw [log_two_eq_of_bounds hLow (by rwa [add_assoc])]
    omega
  · have hLog : Int.log 2 r < -1074 + 53 :=
      (Int.lt_zpow_iff_log_lt (by norm_num) hr).mp (by exact_mod_cast hHigh)
    omega

/-- A ratio over `2 ^ quantum r` is below `2 ^ 53`, and at least `2 ^ 52` unless the kept exponent
is the subnormal one. -/
theorem div_quantum_bounds {r : ℚ} (hr : 0 < r) :
    r / 2 ^ quantum r < 2 ^ 53 ∧ (quantum r ≠ -1074 → 2 ^ 52 ≤ r / 2 ^ quantum r) := by
  have hPow : (0 : ℚ) < 2 ^ quantum r := zpow_pos (by norm_num) _
  have hLow : ((2 : ℕ) : ℚ) ^ Int.log 2 r ≤ r := Int.zpow_log_le_self (by norm_num) hr
  have hHigh : r < ((2 : ℕ) : ℚ) ^ (Int.log 2 r + 1) := Int.lt_zpow_succ_log_self (by norm_num) r
  push_cast at hLow hHigh
  constructor
  · rw [div_lt_iff₀ hPow, ← zpow_natCast, ← zpow_add₀ (by norm_num)]
    calc r < 2 ^ (Int.log 2 r + 1) := hHigh
      _ ≤ 2 ^ (((53 : ℕ) : ℤ) + quantum r) :=
        zpow_le_zpow_right₀ (by norm_num) (by unfold quantum; omega)
  · intro hq
    have hEq : quantum r = Int.log 2 r - 52 := by unfold quantum at hq ⊢; omega
    rw [le_div_iff₀ hPow, ← zpow_natCast, ← zpow_add₀ (by norm_num), hEq]
    calc (2 : ℚ) ^ (((52 : ℕ) : ℤ) + (Int.log 2 r - 52)) = 2 ^ Int.log 2 r := by congr 1; omega
      _ ≤ r := hLow

/-- **A ratio in the rounding interval of `m · 2 ^ q` rounds to it.** Below a normal power of
two, within the narrow quarter, it rounds up to `2 ^ 53` at the exponent below, which carries;
everywhere else it is within half a unit of `m` at the exponent `q`. -/
theorem kind_pack_of_rounds {negative : Bool} {m s : ℕ} {q : ℤ} {r : ℚ}
    (hBounds : (q = -1074 ∧ m < 2 ^ 52) ∨ (2 ^ 52 ≤ m ∧ m < 2 ^ 53 ∧ -1074 ≤ q ∧ q ≤ 971))
    (hm : m ≠ 0) (hr : 0 < r)
    (hIn : Rounds (r / 2 ^ q) m (if m = 2 ^ 52 ∧ -1074 < q then 1 / 4 else 1 / 2))
    (hs : NearestEven (r / 2 ^ quantum r) s) :
    (pack negative s (quantum r)).kind = .finite negative m q := by
  have hPow : (0 : ℚ) < 2 ^ q := zpow_pos (by norm_num) q
  have hq : -1074 ≤ q ∧ q ≤ 971 := by omega
  have hr' : r = r / 2 ^ q * 2 ^ q := (div_mul_cancel₀ r hPow.ne').symm
  set t := r / 2 ^ q with ht
  by_cases hNarrow : (m = 2 ^ 52 ∧ -1074 < q) ∧ t < m
  · -- the narrow quarter below a binade: `r / 2 ^ (q - 1)` rounds to `2 ^ 53`, which carries
    obtain ⟨⟨rfl, hq1074⟩, htm⟩ := hNarrow
    rw [if_pos ⟨rfl, hq1074⟩] at hIn
    have htLow : (2 : ℚ) ^ 52 - 1 / 4 ≤ t := by
      rcases hIn.1 with h | ⟨-, h⟩
      · push_cast at h; linarith
      · push_cast at h; linarith
    have hTwice : r / 2 ^ (q - 1) = 2 * t := by
      rw [ht, zpow_sub_one₀ (by norm_num)]
      field_simp
    have hQuantum : quantum r = q - 1 := by
      refine quantum_eq (by omega) hr ?_ (.inl ?_)
      · rw [hr', show q - 1 + 53 = 52 + q by ring, zpow_add₀ (by norm_num)]
        push_cast at htm
        exact mul_lt_mul_of_pos_right (by exact_mod_cast htm) hPow
      · rw [hr', show q - 1 + 52 = 51 + q by ring, zpow_add₀ (by norm_num)]
        exact mul_le_mul_of_nonneg_right (by norm_num at htLow ⊢; linarith) hPow.le
    have hCarry : NearestEven (r / 2 ^ quantum r) (2 ^ 53) := by
      have hEven : Even (2 ^ 53 : ℕ) := ⟨2 ^ 52, by norm_num⟩
      rw [hQuantum, hTwice, nearestEven_iff]
      unfold Rounds
      push_cast at htm ⊢
      refine ⟨?_, .inl (by linarith)⟩
      rcases lt_or_eq_of_le htLow with h | h
      · exact .inl (by linarith)
      · exact .inr ⟨hEven, by linarith⟩
    rw [hs.unique hCarry, hQuantum, kind_pack_carry (by omega) (by omega), sub_add_cancel]
  · -- within half a unit of `m` at the exponent `q`
    have hNear : NearestEven t m := by
      rw [nearestEven_iff]
      refine ⟨?_, hIn.2⟩
      by_cases hN : m = 2 ^ 52 ∧ -1074 < q
      · have htm : (m : ℚ) ≤ t := not_lt.mp fun h => hNarrow ⟨hN, h⟩
        exact .inl (by linarith)
      · rw [if_neg hN] at hIn
        exact hIn.1
    have hAbs := hNear.abs_sub_le
    rw [abs_le] at hAbs
    have hQuantum : quantum r = q := by
      refine quantum_eq hq.1 hr ?_ ?_
      · rw [hr', add_comm, zpow_add₀ (by norm_num)]
        refine mul_lt_mul_of_pos_right ?_ hPow
        have : (m : ℚ) + 1 ≤ 2 ^ 53 := by exact_mod_cast (by omega : m + 1 ≤ 2 ^ 53)
        push_cast
        linarith
      · by_cases hSub : q = -1074
        · exact .inr hSub
        · left
          rw [hr', add_comm, zpow_add₀ (by norm_num)]
          refine mul_le_mul_of_nonneg_right ?_ hPow.le
          by_cases hPower : m = 2 ^ 52
          · -- at a normal power of two `t` is not in the narrow quarter below
            have htm : (m : ℚ) ≤ t := not_lt.mp fun h => hNarrow ⟨⟨hPower, by omega⟩, h⟩
            rw [hPower] at htm
            push_cast at htm ⊢
            exact htm
          · have : (2 : ℚ) ^ 52 + 1 ≤ m := by exact_mod_cast (by omega : 2 ^ 52 + 1 ≤ m)
            push_cast
            linarith
    rw [hQuantum] at hs ⊢
    rw [hs.unique hNear]
    exact kind_pack hm (by omega) hq.1 hq.2 (by omega)

/-- **What rounds to `m · 2 ^ q` lies in its rounding interval.** A carry came from the narrow
quarter below the binade; any other significand from within half a unit of it. -/
theorem rounds_of_kind_pack {negative negative' : Bool} {m s : ℕ} {q : ℤ} {r : ℚ} (hr : 0 < r)
    (hs : NearestEven (r / 2 ^ quantum r) s) (hm : m ≠ 0)
    (h : (pack negative s (quantum r)).kind = .finite negative' m q) :
    Rounds (r / 2 ^ q) m (if m = 2 ^ 52 ∧ -1074 < q then 1 / 4 else 1 / 2) := by
  obtain ⟨hT53, hT52⟩ := div_quantum_bounds hr
  have hAbs := hs.abs_sub_le
  rw [abs_le] at hAbs
  -- the significand fits, and is normal unless the exponent is the subnormal one
  have hs53 : s ≤ 2 ^ 53 := by
    have h : ((s : ℕ) : ℚ) < ((2 ^ 53 + 1 : ℕ) : ℚ) := by push_cast; linarith
    have h' : s < 2 ^ 53 + 1 := by exact_mod_cast h
    omega
  have hNormal : 2 ^ 52 ≤ s ∨ quantum r = -1074 := by
    by_cases hq : quantum r = -1074
    · exact .inr hq
    · have h52 := hT52 hq
      have h : ((2 ^ 52 : ℕ) : ℚ) < ((s + 1 : ℕ) : ℚ) := by push_cast; linarith
      have h' : 2 ^ 52 < s + 1 := by exact_mod_cast h
      exact .inl (by omega)
  have hq1074 : -1074 ≤ quantum r := le_max_right _ _
  rcases pack_cases_of_kind h hm hs53 hq1074 hNormal with ⟨rfl, rfl, rfl⟩ | ⟨-, rfl, rfl⟩
  · -- a carry: `r / 2 ^ (quantum r + 1)` is in the narrow quarter below `2 ^ 52`
    rw [if_pos ⟨rfl, by omega⟩]
    have hHalf : r / 2 ^ (quantum r + 1) = r / 2 ^ quantum r / 2 := by
      rw [zpow_add_one₀ (by norm_num), div_div]
    rw [hHalf]
    unfold Rounds
    push_cast at hAbs hT53 ⊢
    refine ⟨?_, .inl (by linarith)⟩
    rcases lt_or_eq_of_le hAbs.1 with hLt | hEq
    · exact .inl (by linarith)
    · exact .inr ⟨⟨2 ^ 51, by norm_num⟩, by linarith⟩
  · -- the same exponent: within half a unit, and not below `m` at a normal power of two
    by_cases hN : m = 2 ^ 52 ∧ -1074 < quantum r
    · rw [if_pos hN]
      have h52 := hT52 (by omega)
      obtain ⟨rfl, -⟩ := hN
      have hRounds := nearestEven_iff.mp hs
      unfold Rounds at hRounds ⊢
      push_cast at h52 hRounds ⊢
      exact ⟨.inl (by linarith), hRounds.2⟩
    · rw [if_neg hN]
      exact nearestEven_iff.mp hs

/-- **`nearest` rounds correctly**: it gives the finite nonzero value `x` exactly for the ratios
in the rounding interval of `x`. -/
theorem nearest_eq_iff {x : Binary64} {negative : Bool} {m num den : ℕ} {q : ℤ}
    (hx : x.kind = .finite negative m q) (hm : m ≠ 0) (hnum : num ≠ 0) (hden : den ≠ 0) :
    nearest negative num den = x ↔
      (Decimal.Interval.around m q (m = Nat.pow 2 52 && 1 < x.biased)).Mem ((num : ℚ) / den) := by
  have hr : (0 : ℚ) < num / den := by
    have : (0 : ℚ) < num := by exact_mod_cast Nat.pos_of_ne_zero hnum
    have : (0 : ℚ) < den := by exact_mod_cast Nat.pos_of_ne_zero hden
    positivity
  have hBelow : (if (m = Nat.pow 2 52 && 1 < x.biased) = true then (1 / 4 : ℚ) else 1 / 2) =
      if m = 2 ^ 52 ∧ -1074 < q then 1 / 4 else 1 / 2 := by
    rw [if_congr (narrowBelow_iff hx) rfl rfl]
  obtain ⟨s, hs, hEq⟩ := @nearest_eq_pack negative num den hnum hden
  rw [hEq, Decimal.mem_around_iff hm, hBelow]
  constructor
  · intro hPack
    exact rounds_of_kind_pack hr hs hm (by rw [hPack, hx])
  · intro hIn
    have hKind : (pack negative s (quantum ((num : ℚ) / den))).kind = .finite negative m q :=
      kind_pack_of_rounds (kind_finite_bounds hx) hm hr hIn hs
    exact eq_of_kind_eq (hKind.trans hx.symm) (by rw [hKind]; simp)

/-! ## Reading decimals -/

/-- A positive integer lies between the powers of ten its number of digits gives. -/
theorem digits_bounds {d : ℕ} (hd : d ≠ 0) :
    (10 : ℚ) ^ (((toString d).length : ℤ) - 1) ≤ d ∧ (d : ℚ) < 10 ^ ((toString d).length : ℤ) := by
  rw [Nat.toString_eq_repr]
  have hPos : 0 < d.repr.length := Nat.length_repr_pos
  have hHigh : d < 10 ^ d.repr.length := (Nat.length_repr_le_iff hPos).mp le_rfl
  have hLow : 10 ^ (d.repr.length - 1) ≤ d := by
    by_cases hOne : d.repr.length = 1
    · rw [hOne]
      omega
    · by_contra hLt
      have := (Nat.length_repr_le_iff (by omega)).mpr (not_le.mp hLt)
      omega
  constructor
  · rw [show (d.repr.length : ℤ) - 1 = ((d.repr.length - 1 : ℕ) : ℤ) by omega, zpow_natCast]
    exact_mod_cast hLow
  · rw [zpow_natCast]
    exact_mod_cast hHigh

/-- The binary64 range against powers of ten, above. -/
theorem two_zpow_1024_lt : (2 : ℚ) ^ (1024 : ℤ) < 10 ^ (310 : ℤ) := by
  rw [zpow_ofNat, zpow_ofNat]
  exact_mod_cast (by decide +kernel : (2 : ℕ) ^ 1024 < 10 ^ 310)

/-- The binary64 range against powers of ten, below. -/
theorem ten_zpow_neg_326_lt : (10 : ℚ) ^ (-326 : ℤ) < 2 ^ (-1075 : ℤ) := by
  rw [zpow_neg, zpow_neg, zpow_ofNat, zpow_ofNat]
  exact inv_strictAnti₀ (by positivity) (by exact_mod_cast (by decide +kernel : (2 : ℕ) ^ 1075 < 10 ^ 326))

/-- The rounding interval of a finite nonzero value lies between `2 ^ -1075` and `2 ^ 1024`. -/
theorem bounds_of_mem {x : Binary64} {negative : Bool} {m : ℕ} {q : ℤ} {r : ℚ}
    (hx : x.kind = .finite negative m q) (hm : m ≠ 0)
    (hMem : (Decimal.Interval.around m q (m = Nat.pow 2 52 && 1 < x.biased)).Mem r) :
    (2 : ℚ) ^ (-1075 : ℤ) ≤ r ∧ r < 2 ^ (1024 : ℤ) := by
  have hPow : (0 : ℚ) < 2 ^ q := zpow_pos (by norm_num) q
  have hBounds := kind_finite_bounds hx
  have hq : -1074 ≤ q ∧ q ≤ 971 := by omega
  have hm53 : (m : ℚ) + 1 ≤ 2 ^ 53 := by exact_mod_cast (by omega : m + 1 ≤ 2 ^ 53)
  have hm1 : (1 : ℚ) ≤ m := by exact_mod_cast Nat.one_le_iff_ne_zero.mpr hm
  rw [Decimal.mem_around_iff hm] at hMem
  obtain ⟨hLow, hHigh⟩ := hMem
  -- in units of `2 ^ q` the value is between one half and `2 ^ 53`
  have hHalf : (1 / 2 : ℚ) ≤ r / 2 ^ q := by
    have hBelow : (if (m = Nat.pow 2 52 && 1 < x.biased) = true then (1 / 4 : ℚ) else 1 / 2) ≤ 1 / 2 := by
      split_ifs <;> norm_num
    rcases hLow with h | ⟨-, h⟩ <;> linarith
  have hTop : r / 2 ^ q < 2 ^ 53 := by rcases hHigh with h | ⟨-, h⟩ <;> linarith
  constructor
  · calc (2 : ℚ) ^ (-1075 : ℤ) = 1 / 2 * 2 ^ (-1074 : ℤ) := by
          rw [show (-1075 : ℤ) = -1 + -1074 by norm_num, zpow_add₀ (by norm_num)]
          norm_num
      _ ≤ r / 2 ^ q * 2 ^ q := mul_le_mul hHalf (zpow_le_zpow_right₀ (by norm_num) hq.1)
          (zpow_pos (by norm_num) _).le (by linarith)
      _ = r := div_mul_cancel₀ r hPow.ne'
  · calc r = r / 2 ^ q * 2 ^ q := (div_mul_cancel₀ r hPow.ne').symm
      _ < 2 ^ 53 * 2 ^ (971 : ℤ) :=
          mul_lt_mul hTop (zpow_le_zpow_right₀ (by norm_num) hq.2) hPow (by norm_num)
      _ = 2 ^ (1024 : ℤ) := by
          rw [← zpow_natCast, ← zpow_add₀ (by norm_num)]
          norm_num

/-- **A decimal literal reads as `x` exactly when its value lies in the rounding interval of `x`.**
Literals far outside the binary64 range are decided without rounding; they are outside every
interval. -/
theorem ofDecimal_eq_iff {x : Binary64} {negative : Bool} {m digits : ℕ} {q e : ℤ}
    (hx : x.kind = .finite negative m q) (hm : m ≠ 0) :
    ofDecimal negative digits e = x ↔
      digits ≠ 0 ∧
        (Decimal.Interval.around m q (m = Nat.pow 2 52 && 1 < x.biased)).Mem (digits * 10 ^ e) := by
  have hZero : ∀ n, zero n ≠ x := by
    intro n h
    have hKind := congrArg kind h
    rw [kind_zero, hx] at hKind
    cases hKind
    exact hm rfl
  have hInfinity : ∀ n, infinity n ≠ x := by
    intro n h
    have hKind := congrArg kind h
    rw [kind_infinity, hx] at hKind
    cases hKind
  unfold ofDecimal
  by_cases hd : digits = 0
  · simp only [hd, if_true, ne_eq, not_true_eq_false, false_and, iff_false]
    exact hZero negative
  obtain ⟨hDigitsLow, hDigitsHigh⟩ := digits_bounds hd
  have hTen : (0 : ℚ) < 10 ^ e := zpow_pos (by norm_num) e
  simp only [hd, if_false, ne_eq, not_false_eq_true, true_and]
  split_ifs with hBig hSmall hExp
  · -- at least `10 ^ 310`: past the largest finite value
    refine iff_of_false (hInfinity negative) fun hMem => ?_
    have hUpper := (bounds_of_mem hx hm hMem).2
    have : (10 : ℚ) ^ (310 : ℤ) ≤ digits * 10 ^ e := by
      calc (10 : ℚ) ^ (310 : ℤ) ≤ 10 ^ (((toString digits).length : ℤ) - 1 + e) :=
            zpow_le_zpow_right₀ (by norm_num) (by omega)
        _ = 10 ^ (((toString digits).length : ℤ) - 1) * 10 ^ e := zpow_add₀ (by norm_num) _ _
        _ ≤ digits * 10 ^ e := mul_le_mul_of_nonneg_right hDigitsLow hTen.le
    exact lt_irrefl _ ((this.trans_lt hUpper).trans two_zpow_1024_lt)
  · -- below `10 ^ -325`: less than half the least subnormal
    refine iff_of_false (hZero negative) fun hMem => ?_
    have hLower := (bounds_of_mem hx hm hMem).1
    have : (digits : ℚ) * 10 ^ e < 10 ^ (-326 : ℤ) := by
      calc (digits : ℚ) * 10 ^ e < 10 ^ ((toString digits).length : ℤ) * 10 ^ e :=
            mul_lt_mul_of_pos_right hDigitsHigh hTen
        _ = 10 ^ (((toString digits).length : ℤ) + e) := (zpow_add₀ (by norm_num) _ _).symm
        _ ≤ 10 ^ (-326 : ℤ) := zpow_le_zpow_right₀ (by norm_num) (by omega)
    exact lt_irrefl _ ((hLower.trans_lt this).trans ten_zpow_neg_326_lt)
  · rw [nearest_eq_iff hx hm (by simp [Nat.pow_eq, hd]) one_ne_zero]
    have hValue : (((digits * Nat.pow 10 e.toNat : ℕ) : ℚ) / ((1 : ℕ) : ℚ)) = digits * 10 ^ e := by
      obtain ⟨k, rfl⟩ := Int.eq_ofNat_of_zero_le hExp
      push_cast [Nat.pow_eq]
      rw [Int.toNat_natCast, div_one, zpow_natCast]
    rw [hValue]
  · rw [nearest_eq_iff hx hm hd (by simp [Nat.pow_eq])]
    have hValue : ((digits : ℚ) / ((Nat.pow 10 (-e).toNat : ℕ) : ℚ)) = digits * 10 ^ e := by
      obtain ⟨k, hk⟩ : ∃ k : ℕ, e = -(k : ℤ) := ⟨(-e).toNat, by omega⟩
      rw [hk, neg_neg, Int.toNat_natCast, zpow_neg, zpow_natCast, div_eq_mul_inv]
      push_cast [Nat.pow_eq]
      rfl
    rw [hValue]

end Binary64

end Transcode
