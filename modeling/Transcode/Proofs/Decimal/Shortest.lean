import Transcode.Proofs.Decimal.Exponent

/-!
# The shortest decimal in a rounding interval

`Decimal.shortest m q` searches `k = 1, 2, …, 17` significant digits for a decimal inside the
rounding interval of `m · 2 ^ q`. This module proves that what it returns is the decimal the
script language standard asks for: it lies in the interval, no decimal in the interval has
fewer significant digits, and of those with as many it is the nearest to `m · 2 ^ q`, the even
one of two equally near.

The argument runs on the grid `10 ^ (n - k)`, `n` the decimal exponent of the value. A decimal
of at most `k` digits in the interval is either a multiple of `10 ^ (n - k)` or lies below
`10 ^ (n - 1)`, itself such a multiple between it and the value; the interval is convex, so it
holds a multiple exactly when it holds the one just below the value or the one just above
(`Interval.mem_floor_or_succ`). At `k = 17` the grid is finer than the interval is wide, and
a tie between the digits `9` and `10` is ruled out by the factor five of `10`.

## Main results

* `Decimal.Interval.choose_spec`: the multiple of `10 ^ g` that `pick` settles on is one
  nearest to the value.
* `Decimal.Interval.search_spec`: the search stops at the first `k` whose grid meets the
  interval.
* `Decimal.shortest_shortestIn`: `shortest` meets the standard's requirements.
-/

namespace Transcode

namespace Binary64

/-- The nearest natural number is no farther than any other; one as far is the nearest itself,
or both lie half a unit away and the nearest is even. -/
theorem NearestEven.le_abs_sub {y : ℚ} {c : ℕ} (h : NearestEven y c) (t : ℕ) :
    |y - c| ≤ |y - t| ∧ (|y - c| = |y - t| → t = c ∨ Even c ∧ |y - c| = 1 / 2) := by
  rcases eq_or_ne t c with rfl | hNe
  · exact ⟨le_rfl, fun _ => .inl rfl⟩
  have hApart : (1 : ℚ) ≤ |(t : ℚ) - c| := by
    rcases Nat.lt_or_gt_of_ne hNe with hLt | hLt
    · have : (t : ℚ) + 1 ≤ c := by exact_mod_cast hLt
      rw [abs_of_neg (by linarith)]
      linarith
    · have : (c : ℚ) + 1 ≤ t := by exact_mod_cast hLt
      rw [abs_of_pos (by linarith)]
      linarith
  have hTriangle : |(t : ℚ) - c| ≤ |y - t| + |y - c| :=
    calc |(t : ℚ) - c| = |-(y - t) + (y - c)| := by congr 1; ring
      _ ≤ |-(y - t)| + |y - c| := abs_add_le _ _
      _ = |y - t| + |y - c| := by rw [abs_neg]
  rcases h with hLt | ⟨hHalf, hEven⟩
  · exact ⟨by linarith, fun hEq => absurd hEq (by linarith)⟩
  · exact ⟨by linarith, fun _ => .inr ⟨hEven, hHalf⟩⟩

end Binary64

namespace Decimal

/-- The value `digits · 10 ^ (exponent - count)` of a decimal. -/
def Digits.value (d : Digits) : ℚ := d.digits * 10 ^ (d.exponent - d.count)

namespace Interval

/-- The point the interval is around, `value · 2 ^ scale`. -/
def center (iv : Interval) : ℚ := iv.value * 2 ^ iv.scale

/-! ## The interval as a set -/

theorem holds_iff (iv : Interval) (s : ℕ) (g : ℤ) :
    iv.holds s g = true ↔ iv.Mem (s * 10 ^ g) := by
  unfold holds Mem
  simp only [compareScaled_eq, Bool.and_eq_true, Bool.or_eq_true, beq_iff_eq, compare_lt_iff_lt,
    compare_eq_iff_eq, compare_gt_iff_gt]
  constructor
  · rintro ⟨hLow, hHigh⟩
    exact ⟨hLow, hHigh.imp_right fun h => ⟨h.1, h.2.symm⟩⟩
  · rintro ⟨hLow, hHigh⟩
    exact ⟨hLow, hHigh.imp_right fun h => ⟨h.1, h.2.symm⟩⟩

/-- The interval is convex. -/
theorem Mem.of_le_of_le {iv : Interval} {a b r : ℚ} (ha : iv.Mem a) (hb : iv.Mem b)
    (hLow : a ≤ r) (hHigh : r ≤ b) : iv.Mem r := by
  constructor
  · rcases ha.1 with h | ⟨hClosed, h⟩
    · exact .inl (h.trans_le hLow)
    · rcases hLow.lt_or_eq with hLt | rfl
      · exact .inl (h.trans_lt hLt)
      · exact .inr ⟨hClosed, h⟩
  · rcases hb.2 with h | ⟨hClosed, h⟩
    · exact .inl (hHigh.trans_lt h)
    · rcases hHigh.lt_or_eq with hLt | rfl
      · exact .inl (h ▸ hLt)
      · exact .inr ⟨hClosed, h⟩

theorem mem_center {iv : Interval} (hLow : iv.low < iv.value) (hHigh : iv.value < iv.high) :
    iv.Mem iv.center := by
  have hScale : (0 : ℚ) < 2 ^ iv.scale := zpow_pos two_pos _
  refine ⟨.inl ?_, .inl ?_⟩
  · exact mul_lt_mul_of_pos_right (by exact_mod_cast hLow) hScale
  · exact mul_lt_mul_of_pos_right (by exact_mod_cast hHigh) hScale

theorem center_nonneg (iv : Interval) : 0 ≤ iv.center :=
  mul_nonneg (Nat.cast_nonneg _) (zpow_pos two_pos _).le

/-! ## The grid `10 ^ g` around the center -/

section Grid

variable {iv : Interval} {g : ℤ}

/-- Distances on the grid, in units of `10 ^ g`. -/
theorem abs_grid_sub (t : ℚ) (g : ℤ) (v : ℚ) :
    |t * 10 ^ g - v| = |t - v / 10 ^ g| * 10 ^ g := by
  have hPos : (0 : ℚ) < 10 ^ g := zpow_pos (by norm_num) g
  rw [← abs_of_pos hPos, ← abs_mul, abs_of_pos hPos, sub_mul, div_mul_cancel₀ _ hPos.ne']

theorem floor_mul_le (iv : Interval) (g : ℤ) :
    (⌊iv.center / 10 ^ g⌋₊ : ℚ) * 10 ^ g ≤ iv.center := by
  have hPos : (0 : ℚ) < 10 ^ g := zpow_pos (by norm_num) g
  rw [← le_div_iff₀ hPos]
  exact Nat.floor_le (div_nonneg iv.center_nonneg hPos.le)

theorem lt_succ_floor_mul (iv : Interval) (g : ℤ) :
    iv.center < ((⌊iv.center / 10 ^ g⌋₊ + 1 : ℕ) : ℚ) * 10 ^ g := by
  have hPos : (0 : ℚ) < 10 ^ g := zpow_pos (by norm_num) g
  rw [← div_lt_iff₀ hPos]
  push_cast
  exact Nat.lt_floor_add_one _

/-- A multiple of `10 ^ g` in the interval at or above the next one above the center puts that
one in the interval too. -/
theorem mem_succ_of_mem {t : ℕ} (hc : iv.Mem iv.center) (ht : iv.Mem (t * 10 ^ g))
    (hLe : ⌊iv.center / 10 ^ g⌋₊ + 1 ≤ t) :
    iv.Mem (((⌊iv.center / 10 ^ g⌋₊ + 1 : ℕ) : ℚ) * 10 ^ g) := by
  refine hc.of_le_of_le ht (lt_succ_floor_mul iv g).le ?_
  exact mul_le_mul_of_nonneg_right (by exact_mod_cast hLe) (zpow_pos (by norm_num) g).le

/-- A multiple of `10 ^ g` in the interval at or below the last one below the center puts that
one in the interval too. -/
theorem mem_floor_of_mem {t : ℕ} (hc : iv.Mem iv.center) (ht : iv.Mem (t * 10 ^ g))
    (hLe : t ≤ ⌊iv.center / 10 ^ g⌋₊) : iv.Mem (⌊iv.center / 10 ^ g⌋₊ * 10 ^ g) := by
  refine ht.of_le_of_le hc ?_ (floor_mul_le iv g)
  exact mul_le_mul_of_nonneg_right (by exact_mod_cast hLe) (zpow_pos (by norm_num) g).le

/-- **Convexity on the grid**: when the interval holds a multiple of `10 ^ g`, it holds the one
just below the center or the one just above. -/
theorem mem_floor_or_succ {t : ℕ} (hc : iv.Mem iv.center) (ht : iv.Mem (t * 10 ^ g)) :
    iv.Mem (⌊iv.center / 10 ^ g⌋₊ * 10 ^ g) ∨
      iv.Mem (((⌊iv.center / 10 ^ g⌋₊ + 1 : ℕ) : ℚ) * 10 ^ g) := by
  rcases le_or_gt t ⌊iv.center / 10 ^ g⌋₊ with hLe | hGt
  · exact .inl (mem_floor_of_mem hc ht hLe)
  · exact .inr (mem_succ_of_mem hc ht hGt)

end Grid

/-! ## The multiple `pick` settles on -/

/-- The significand `pick` settles on for the grid `10 ^ g`, before it is written as digits. -/
def choose (iv : Interval) (g : ℤ) (last : Bool) : Option ℕ :=
  let s := floorScaled iv.value iv.scale g
  if iv.holds s g && iv.holds (s + 1) g then some (iv.nearer s g)
  else if iv.holds s g then some s
  else if iv.holds (s + 1) g then some (s + 1)
  else if last then some (iv.nearer s g)
  else none

theorem pick_eq (iv : Interval) (n : ℤ) (k : ℕ) (last : Bool) :
    iv.pick n k last = (iv.choose (n - k) last).map fun s =>
      if s = Nat.pow 10 k then ⟨1, 1, n + 1⟩ else ⟨s, k, n⟩ :=
  rfl

theorem floorScaled_value (iv : Interval) (g : ℤ) :
    floorScaled iv.value iv.scale g = ⌊iv.center / 10 ^ g⌋₊ :=
  floorScaled_eq _ _ _

/-- Of the two multiples around the center, `nearer` takes the nearer one, the even one of two
equally near. -/
theorem nearestEven_nearer (iv : Interval) (g : ℤ) :
    Binary64.NearestEven (iv.center / 10 ^ g) (iv.nearer ⌊iv.center / 10 ^ g⌋₊ g) := by
  set y := iv.center / 10 ^ g with hy
  set s := ⌊y⌋₊ with hs
  have hPos : (0 : ℚ) < 10 ^ g := zpow_pos (by norm_num) g
  have hLow : (s : ℚ) ≤ y := Nat.floor_le (div_nonneg iv.center_nonneg hPos.le)
  have hHigh : y < s + 1 := Nat.lt_floor_add_one y
  -- `nearer` compares twice the center with `2s + 1` on the grid, that is `y` with `s + 1/2`
  have hCompare : compareScaled (2 * iv.value) iv.scale (2 * s + 1) g = compare y (s + 1 / 2) := by
    have hTwice : ((2 * iv.value : ℕ) : ℚ) * 2 ^ iv.scale = 2 * iv.center := by
      push_cast [center]
      ring
    have hMid : ((2 * s + 1 : ℕ) : ℚ) * 10 ^ g = 2 * ((s + 1 / 2) * 10 ^ g) := by
      push_cast
      ring
    rw [compareScaled_eq, hTwice, hMid]
    apply compare_eq_compare
    · rw [mul_lt_mul_iff_of_pos_left two_pos, hy, div_lt_iff₀ hPos]
    · rw [mul_right_inj' two_ne_zero, hy, div_eq_iff hPos.ne']
  unfold nearer
  rw [hCompare]
  rcases lt_trichotomy y (s + 1 / 2) with h | h | h
  · rw [compare_lt_iff_lt.mpr h]
    left
    rw [abs_of_nonneg (by linarith)]
    linarith
  · rw [compare_eq_iff_eq.mpr h]
    have hHalf : |y - s| = 1 / 2 ∧ |y - (s + 1 : ℕ)| = 1 / 2 := by
      push_cast
      constructor
      · rw [h, abs_of_pos (by norm_num)]
        ring
      · rw [h, abs_of_neg (by norm_num)]
        ring
    split_ifs with hEven
    · exact .inr ⟨hHalf.1, Nat.even_iff.mpr hEven⟩
    · exact .inr ⟨hHalf.2, Nat.even_add_one.mpr (by rwa [Nat.even_iff])⟩
  · rw [compare_gt_iff_gt.mpr h]
    left
    push_cast
    rw [abs_of_neg (by linarith)]
    linarith

theorem nearer_eq_or (iv : Interval) (s : ℕ) (g : ℤ) : iv.nearer s g = s ∨ iv.nearer s g = s + 1 := by
  unfold nearer
  split
  · exact .inl rfl
  · exact .inr rfl
  · split_ifs
    · exact .inl rfl
    · exact .inr rfl

/-- `c · 10 ^ g` lies in the interval and no multiple of `10 ^ g` in it is nearer to the center;
one as near is `c · 10 ^ g` itself, or the center lies half way between them and `c` is even. -/
structure NearestOnGrid (iv : Interval) (g : ℤ) (c : ℕ) : Prop where
  mem : iv.Mem (c * 10 ^ g)
  nearest : ∀ t : ℕ, iv.Mem (t * 10 ^ g) →
    |(c : ℚ) * 10 ^ g - iv.center| ≤ |(t : ℚ) * 10 ^ g - iv.center| ∧
      (|(c : ℚ) * 10 ^ g - iv.center| = |(t : ℚ) * 10 ^ g - iv.center| →
        t = c ∨ Even c ∧ 2 * |(c : ℚ) * 10 ^ g - iv.center| = 10 ^ g)

/-- `NearestOnGrid` in units of `10 ^ g`. -/
theorem nearestOnGrid_of_scaled {iv : Interval} {g : ℤ} {c : ℕ} (hMem : iv.Mem (c * 10 ^ g))
    (h : ∀ t : ℕ, iv.Mem (t * 10 ^ g) →
      |iv.center / 10 ^ g - c| ≤ |iv.center / 10 ^ g - t| ∧
        (|iv.center / 10 ^ g - c| = |iv.center / 10 ^ g - t| →
          t = c ∨ Even c ∧ |iv.center / 10 ^ g - c| = 1 / 2)) :
    iv.NearestOnGrid g c := by
  have hPos : (0 : ℚ) < 10 ^ g := zpow_pos (by norm_num) g
  refine ⟨hMem, fun t ht => ?_⟩
  obtain ⟨hLe, hTie⟩ := h t ht
  rw [abs_grid_sub, abs_grid_sub, abs_sub_comm (c : ℚ), abs_sub_comm (t : ℚ)]
  refine ⟨mul_le_mul_of_nonneg_right hLe hPos.le, fun hEq => ?_⟩
  rcases hTie ((mul_left_inj' hPos.ne').mp hEq) with hSame | ⟨hEven, hHalf⟩
  · exact .inl hSame
  · refine .inr ⟨hEven, ?_⟩
    rw [hHalf]
    ring

section Choose

variable {iv : Interval} {g : ℤ}

/-- With only the multiple below the center in the interval, it is the nearest. -/
theorem nearestOnGrid_floor (hc : iv.Mem iv.center) (hLow : iv.Mem (⌊iv.center / 10 ^ g⌋₊ * 10 ^ g))
    (hHigh : ¬iv.Mem (((⌊iv.center / 10 ^ g⌋₊ + 1 : ℕ) : ℚ) * 10 ^ g)) :
    iv.NearestOnGrid g ⌊iv.center / 10 ^ g⌋₊ := by
  have hPos : (0 : ℚ) < 10 ^ g := zpow_pos (by norm_num) g
  have hFloor : (⌊iv.center / 10 ^ g⌋₊ : ℚ) ≤ iv.center / 10 ^ g :=
    Nat.floor_le (div_nonneg iv.center_nonneg hPos.le)
  refine nearestOnGrid_of_scaled hLow fun t ht => ?_
  -- every multiple in the interval lies at or below the center
  have hBelow : t ≤ ⌊iv.center / 10 ^ g⌋₊ := by
    by_contra hGt
    exact hHigh (mem_succ_of_mem hc ht (by omega))
  have hCast : (t : ℚ) ≤ ⌊iv.center / 10 ^ g⌋₊ := by exact_mod_cast hBelow
  rw [abs_of_nonneg (by linarith), abs_of_nonneg (by linarith)]
  refine ⟨by linarith, fun hEq => .inl ?_⟩
  exact_mod_cast (by linarith : (t : ℚ) = ⌊iv.center / 10 ^ g⌋₊)

/-- With only the multiple above the center in the interval, it is the nearest. -/
theorem nearestOnGrid_succ (hc : iv.Mem iv.center) (hLow : ¬iv.Mem (⌊iv.center / 10 ^ g⌋₊ * 10 ^ g))
    (hHigh : iv.Mem (((⌊iv.center / 10 ^ g⌋₊ + 1 : ℕ) : ℚ) * 10 ^ g)) :
    iv.NearestOnGrid g (⌊iv.center / 10 ^ g⌋₊ + 1) := by
  have hCeil : iv.center / 10 ^ g < (⌊iv.center / 10 ^ g⌋₊ : ℚ) + 1 := Nat.lt_floor_add_one _
  refine nearestOnGrid_of_scaled hHigh fun t ht => ?_
  -- every multiple in the interval lies above the center
  have hAbove : ⌊iv.center / 10 ^ g⌋₊ + 1 ≤ t := by
    by_contra hLe
    exact hLow (mem_floor_of_mem hc ht (by omega))
  have hCast : (⌊iv.center / 10 ^ g⌋₊ : ℚ) + 1 ≤ t := by exact_mod_cast hAbove
  push_cast
  rw [abs_of_neg (by linarith), abs_of_neg (by linarith)]
  refine ⟨by linarith, fun hEq => .inl ?_⟩
  exact_mod_cast (by linarith : (t : ℚ) = ⌊iv.center / 10 ^ g⌋₊ + 1)

/-- With both multiples around the center in the interval, `nearer` picks the nearest. -/
theorem nearestOnGrid_nearer (hLow : iv.Mem (⌊iv.center / 10 ^ g⌋₊ * 10 ^ g))
    (hHigh : iv.Mem (((⌊iv.center / 10 ^ g⌋₊ + 1 : ℕ) : ℚ) * 10 ^ g)) :
    iv.NearestOnGrid g (iv.nearer ⌊iv.center / 10 ^ g⌋₊ g) := by
  have hMem : iv.Mem ((iv.nearer ⌊iv.center / 10 ^ g⌋₊ g : ℕ) * 10 ^ g) := by
    rcases nearer_eq_or iv ⌊iv.center / 10 ^ g⌋₊ g with h | h <;> rw [h]
    · exact hLow
    · exact hHigh
  exact nearestOnGrid_of_scaled hMem fun t _ => (nearestEven_nearer iv g).le_abs_sub t

/-- **What `pick` settles on.** When the interval holds a multiple of `10 ^ g`, `choose` returns
one nearest to the center, the one just below it or the one just above. -/
theorem choose_spec (last : Bool) (hc : iv.Mem iv.center) {t : ℕ} (ht : iv.Mem (t * 10 ^ g)) :
    ∃ c, iv.choose g last = some c ∧ iv.NearestOnGrid g c ∧
      (c = ⌊iv.center / 10 ^ g⌋₊ ∨ c = ⌊iv.center / 10 ^ g⌋₊ + 1) := by
  unfold choose
  simp only [floorScaled_value]
  cases hLow : iv.holds ⌊iv.center / 10 ^ g⌋₊ g <;>
    cases hHigh : iv.holds (⌊iv.center / 10 ^ g⌋₊ + 1) g <;>
    simp only [Bool.and_true, Bool.and_false, Bool.false_eq_true, if_true, if_false]
  · rw [← Bool.not_eq_true, holds_iff] at hLow hHigh
    exact absurd (mem_floor_or_succ hc ht) (by tauto)
  · rw [← Bool.not_eq_true, holds_iff] at hLow
    rw [holds_iff] at hHigh
    exact ⟨_, rfl, nearestOnGrid_succ hc hLow hHigh, .inr rfl⟩
  · rw [holds_iff] at hLow
    rw [← Bool.not_eq_true, holds_iff] at hHigh
    exact ⟨_, rfl, nearestOnGrid_floor hc hLow hHigh, .inl rfl⟩
  · rw [holds_iff] at hLow hHigh
    exact ⟨_, rfl, nearestOnGrid_nearer hLow hHigh, nearer_eq_or _ _ _⟩

/-- Without `last`, `choose` gives up exactly when no multiple of `10 ^ g` is in the interval. -/
theorem choose_eq_none_iff (hc : iv.Mem iv.center) :
    iv.choose g false = none ↔ ∀ t : ℕ, ¬iv.Mem (t * 10 ^ g) := by
  constructor
  · intro hNone t ht
    obtain ⟨c, hSome, -⟩ := choose_spec false hc ht
    rw [hNone] at hSome
    simp at hSome
  · intro hNo
    have hLow : iv.holds ⌊iv.center / 10 ^ g⌋₊ g = false := by
      rw [← Bool.not_eq_true, holds_iff]
      exact hNo _
    have hHigh : iv.holds (⌊iv.center / 10 ^ g⌋₊ + 1) g = false := by
      rw [← Bool.not_eq_true, holds_iff]
      exact hNo _
    unfold choose
    simp only [floorScaled_value, hLow, hHigh]
    rfl

end Choose

/-! ## Decimals of at most `k` digits -/

section Decimals

variable {iv : Interval} {n : ℤ} {k : ℕ}

/-- The grid `10 ^ (n - k)` against the powers bounding the decimal exponent `n`. -/
theorem ten_zpow_eq_mul (n : ℤ) (hk : 1 ≤ k) :
    (10 : ℚ) ^ (n - 1) = 10 ^ (k - 1) * 10 ^ (n - k) ∧ (10 : ℚ) ^ n = 10 ^ k * 10 ^ (n - k) := by
  constructor
  · rw [← zpow_natCast, ← zpow_add₀ (by norm_num)]
    congr 1
    omega
  · rw [← zpow_natCast, ← zpow_add₀ (by norm_num)]
    congr 1
    ring

/-- With the center's decimal exponent `n`, the multiple of `10 ^ (n - k)` just below the center
has `k` digits. -/
theorem floor_bounds (hLow : (10 : ℚ) ^ (n - 1) ≤ iv.center) (hHigh : iv.center < 10 ^ n)
    (hk : 1 ≤ k) :
    10 ^ (k - 1) ≤ ⌊iv.center / 10 ^ (n - k)⌋₊ ∧ ⌊iv.center / 10 ^ (n - k)⌋₊ < 10 ^ k := by
  have hPos : (0 : ℚ) < 10 ^ (n - k) := zpow_pos (by norm_num) _
  obtain ⟨hLowPow, hHighPow⟩ := ten_zpow_eq_mul n hk
  constructor
  · apply Nat.le_floor
    rw [le_div_iff₀ hPos]
    push_cast
    rw [← hLowPow]
    exact hLow
  · apply (Nat.floor_lt (div_nonneg iv.center_nonneg hPos.le)).mpr
    rw [div_lt_iff₀ hPos]
    push_cast
    rw [← hHighPow]
    exact hHigh

/-- **A decimal of at most `k` digits in the interval brings a multiple of `10 ^ (n - k)` into it
that is at least as near to the center**, and as near only when it is the same number. -/
theorem exists_grid_near (hc : iv.Mem iv.center) (hLow : (10 : ℚ) ^ (n - 1) ≤ iv.center)
    (hHigh : iv.center < 10 ^ n) (hk : 1 ≤ k) {a : ℕ} {e : ℤ} (haK : a < 10 ^ k)
    (ha : iv.Mem (a * 10 ^ e)) :
    ∃ t : ℕ, iv.Mem (t * 10 ^ (n - k)) ∧
      |(t : ℚ) * 10 ^ (n - k) - iv.center| ≤ |(a : ℚ) * 10 ^ e - iv.center| ∧
      (|(t : ℚ) * 10 ^ (n - k) - iv.center| = |(a : ℚ) * 10 ^ e - iv.center| →
        (t : ℚ) * 10 ^ (n - k) = a * 10 ^ e) := by
  rcases le_or_gt (n - k) e with hCoarse | hFine
  · -- the decimal is itself a multiple of `10 ^ (n - k)`
    have hSame : ((a * 10 ^ (e - (n - k)).toNat : ℕ) : ℚ) * 10 ^ (n - k) = a * 10 ^ e := by
      push_cast
      rw [mul_assoc, ← zpow_natCast, ← zpow_add₀ (by norm_num)]
      congr 2
      omega
    refine ⟨a * 10 ^ (e - (n - k)).toNat, ?_, ?_, fun _ => hSame⟩
    · rw [hSame]
      exact ha
    · rw [hSame]
  · -- the decimal lies below `10 ^ (n - 1)`; the multiple just below the center lies between
    have hPos : (0 : ℚ) < 10 ^ e := zpow_pos (by norm_num) e
    have hFloorLow := (floor_bounds hLow hHigh hk).1
    have hBelow : (a : ℚ) * 10 ^ e < ⌊iv.center / 10 ^ (n - k)⌋₊ * 10 ^ (n - k) :=
      calc (a : ℚ) * 10 ^ e < 10 ^ k * 10 ^ e :=
            mul_lt_mul_of_pos_right (by exact_mod_cast haK) hPos
        _ = 10 ^ ((k : ℤ) + e) := by rw [← zpow_natCast, ← zpow_add₀ (by norm_num)]
        _ ≤ 10 ^ (n - 1) := zpow_le_zpow_right₀ (by norm_num) (by omega)
        _ = 10 ^ (k - 1) * 10 ^ (n - k) := (ten_zpow_eq_mul n hk).1
        _ ≤ ⌊iv.center / 10 ^ (n - k)⌋₊ * 10 ^ (n - k) :=
            mul_le_mul_of_nonneg_right (by exact_mod_cast hFloorLow) (zpow_pos (by norm_num) _).le
    have hFloor := floor_mul_le iv (n - k)
    refine ⟨⌊iv.center / 10 ^ (n - k)⌋₊, ha.of_le_of_le hc hBelow.le hFloor, ?_, fun hEq => ?_⟩
    · rw [abs_of_nonpos (by linarith), abs_of_nonpos (by linarith)]
      linarith
    · rw [abs_of_nonpos (by linarith), abs_of_nonpos (by linarith)] at hEq
      linarith

/-- The nearest multiple of `10 ^ (n - k)` is as near as any decimal of at most `k` digits in
the interval. -/
theorem NearestOnGrid.nearest_decimal {c : ℕ} (hNear : iv.NearestOnGrid (n - k) c)
    (hc : iv.Mem iv.center) (hLow : (10 : ℚ) ^ (n - 1) ≤ iv.center) (hHigh : iv.center < 10 ^ n)
    (hk : 1 ≤ k) {a : ℕ} {e : ℤ} (haK : a < 10 ^ k) (ha : iv.Mem (a * 10 ^ e)) :
    |(c : ℚ) * 10 ^ (n - k) - iv.center| ≤ |(a : ℚ) * 10 ^ e - iv.center| ∧
      (|(c : ℚ) * 10 ^ (n - k) - iv.center| = |(a : ℚ) * 10 ^ e - iv.center| →
        (a : ℚ) * 10 ^ e = c * 10 ^ (n - k) ∨
          Even c ∧ 2 * |(c : ℚ) * 10 ^ (n - k) - iv.center| = 10 ^ (n - k)) := by
  obtain ⟨t, ht, hLe, hSame⟩ := exists_grid_near hc hLow hHigh hk haK ha
  obtain ⟨hGridLe, hGridTie⟩ := hNear.nearest t ht
  refine ⟨hGridLe.trans hLe, fun hEq => ?_⟩
  have hTie : |(t : ℚ) * 10 ^ (n - k) - iv.center| = |(a : ℚ) * 10 ^ e - iv.center| :=
    le_antisymm hLe (hEq.symm.trans_le hGridLe)
  rcases hGridTie (hEq.trans hTie.symm) with rfl | hHalf
  · exact .inl (hSame hTie).symm
  · exact .inr hHalf

/-- When `choose` gives up on the grid `10 ^ (n - k)`, no decimal of at most `k` digits lies in
the interval. -/
theorem not_mem_of_choose_eq_none (hc : iv.Mem iv.center) (hLow : (10 : ℚ) ^ (n - 1) ≤ iv.center)
    (hHigh : iv.center < 10 ^ n) (hk : 1 ≤ k) (hNone : iv.choose (n - k) false = none) {a : ℕ}
    {e : ℤ} (haK : a < 10 ^ k) : ¬iv.Mem (a * 10 ^ e) := by
  intro ha
  obtain ⟨t, ht, -⟩ := exists_grid_near hc hLow hHigh hk haK ha
  exact (choose_eq_none_iff hc).mp hNone t ht

end Decimals

/-! ## The search -/

theorem choose_last_ne_none (iv : Interval) (g : ℤ) : iv.choose g true ≠ none := by
  unfold choose
  dsimp only
  cases iv.holds (floorScaled iv.value iv.scale g) g <;>
    cases iv.holds (floorScaled iv.value iv.scale g + 1) g <;> simp

theorem pick_last_ne_none (iv : Interval) (n : ℤ) (k : ℕ) : iv.pick n k true ≠ none := by
  rw [pick_eq, Ne, Option.map_eq_none_iff]
  exact choose_last_ne_none iv _

/-- **The search stops at the first `k` where `pick` succeeds**, at `17` digits at the latest. -/
theorem search_spec (iv : Interval) (n : ℤ) (fuel : ℕ) : ∀ k, k ≤ 17 → 17 < k + fuel →
    ∃ k', k ≤ k' ∧ k' ≤ 17 ∧ iv.pick n k' (17 ≤ k') = some (iv.search n k fuel) ∧
      ∀ j, k ≤ j → j < k' → iv.pick n j false = none := by
  induction fuel with
  | zero =>
    intro k hk hFuel
    omega
  | succ fuel ih =>
    intro k hk hFuel
    rw [search]
    cases hPick : iv.pick n k (17 ≤ k) with
    | some d => exact ⟨k, le_rfl, hk, hPick, fun j h₁ h₂ => by omega⟩
    | none =>
      -- at `17` digits `pick` always succeeds, so the search goes on below it
      have hLt : k < 17 := by
        by_contra hNot
        have hLast : decide (17 ≤ k) = true := decide_eq_true (by omega)
        rw [hLast] at hPick
        exact pick_last_ne_none iv n k hPick
      obtain ⟨k', h₁, h₂, hSome, hBefore⟩ := ih (k + 1) (by omega) (by omega)
      refine ⟨k', by omega, h₂, hSome, fun j hj₁ hj₂ => ?_⟩
      rcases hj₁.lt_or_eq with hj | hjk
      · exact hBefore j (by omega) hj₂
      · rw [← hjk]
        rwa [decide_eq_false (by omega : ¬17 ≤ k)] at hPick

end Interval

/-- `d` is the decimal the standard asks for in `iv`: its `count` digits are all significant,
it lies in the interval, no decimal in the interval has fewer significant digits, and of those
with as many it is nearest to the center, the even one of two equally near. -/
structure Digits.ShortestIn (d : Digits) (iv : Interval) : Prop where
  count_pos : 0 < d.count
  digits_ge : 10 ^ (d.count - 1) ≤ d.digits
  digits_lt : d.digits < 10 ^ d.count
  mem : iv.Mem d.value
  fewest : ∀ (a : ℕ) (e : ℤ), 0 < a → iv.Mem (a * 10 ^ e) → 10 ^ (d.count - 1) ≤ a
  nearest : ∀ (a : ℕ) (e : ℤ), a < 10 ^ d.count → iv.Mem (a * 10 ^ e) →
    |d.value - iv.center| ≤ |a * 10 ^ e - iv.center| ∧
      (|d.value - iv.center| = |a * 10 ^ e - iv.center| → (a : ℚ) * 10 ^ e = d.value ∨ Even d.digits)

namespace Interval

variable {iv : Interval} {n : ℤ}

/-- **The search finds the standard's decimal** in an interval holding its center, whose decimal
exponent is `n`, provided the grid of `17` digits meets the interval and the center does not
lie half way between `9 · 10 ^ (n - 1)` and `10 ^ n` with the latter in the interval. -/
theorem search_shortestIn (hc : iv.Mem iv.center) (hLow : (10 : ℚ) ^ (n - 1) ≤ iv.center)
    (hHigh : iv.center < 10 ^ n) (h17 : ∃ t : ℕ, iv.Mem (t * 10 ^ (n - 17)))
    (hNoTie : iv.Mem (10 ^ n) → 2 * iv.center ≠ 19 * 10 ^ (n - 1)) :
    (iv.search n 1 17).ShortestIn iv := by
  obtain ⟨k, hk, hk17, hPick, hBefore⟩ := search_spec iv n 17 1 (by norm_num) (by norm_num)
  -- no decimal of fewer than `k` digits lies in the interval
  have hFewer : ∀ j, 1 ≤ j → j < k → ∀ (a : ℕ) (e : ℤ), a < 10 ^ j → ¬iv.Mem (a * 10 ^ e) := by
    intro j hj hjk a e haJ
    have hNone : iv.choose (n - j) false = none := by
      have hPickNone := hBefore j hj hjk
      rw [pick_eq, Option.map_eq_none_iff] at hPickNone
      exact hPickNone
    exact not_mem_of_choose_eq_none hc hLow hHigh hj hNone haJ
  -- the grid of `k` digits meets the interval
  have hGrid : ∃ t : ℕ, iv.Mem (t * 10 ^ (n - k)) := by
    by_cases hLast : 17 ≤ k
    · obtain rfl : k = 17 := by omega
      exact h17
    · by_contra hNo
      have hNone := (choose_eq_none_iff hc).mpr (not_exists.mp hNo)
      rw [pick_eq, decide_eq_false hLast, hNone] at hPick
      simp at hPick
  obtain ⟨t, ht⟩ := hGrid
  obtain ⟨c, hChoose, hNear, hCand⟩ := choose_spec (decide (17 ≤ k)) hc ht
  obtain ⟨hFloorLow, hFloorHigh⟩ := floor_bounds hLow hHigh hk
  rw [pick_eq, hChoose, Option.map_some, Option.some_inj] at hPick
  rw [← hPick]
  split_ifs with hTen
  · -- `c = 10 ^ k` is written `10 ^ n`; it is a decimal of one digit, so `k = 1`
    rw [Nat.pow_eq] at hTen
    subst hTen
    have hPow : ((10 ^ k : ℕ) : ℚ) * 10 ^ (n - k) = 10 ^ n := by
      rw [Nat.cast_pow, Nat.cast_ofNat, ← zpow_natCast, ← zpow_add₀ (by norm_num)]
      congr 1
      ring
    have hTenMem : iv.Mem (10 ^ n) := hPow ▸ hNear.mem
    obtain rfl : k = 1 := by
      by_contra hNe
      exact hFewer 1 le_rfl (by omega) 1 n (by norm_num) (by simpa using hTenMem)
    have hValue : Digits.value ⟨1, 1, n + 1⟩ = 10 ^ n := by simp [Digits.value]
    refine ⟨by norm_num, by norm_num, by norm_num, by rw [hValue]; exact hTenMem,
      fun a e ha _ => ?_, fun a e haK ha => ?_⟩
    · show 1 ≤ a
      exact ha
    rw [hValue]
    obtain ⟨hLe, hTie⟩ := hNear.nearest_decimal hc hLow hHigh le_rfl haK ha
    rw [hPow] at hLe hTie
    refine ⟨hLe, fun hEq => ?_⟩
    rcases hTie hEq with hSame | ⟨-, hHalf⟩
    · exact .inl hSame
    · -- half way between `9 · 10 ^ (n - 1)` and `10 ^ n`, which is ruled out
      have hTenPow : (10 : ℚ) ^ n = 10 * 10 ^ (n - 1) := by
        rw [← zpow_one_add₀ (by norm_num)]
        congr 1
        ring
      rw [abs_of_pos (by linarith), Nat.cast_one] at hHalf
      exact absurd (by linarith) (hNoTie hTenMem)
  · -- `c` has exactly `k` digits
    have hDigits : 10 ^ (k - 1) ≤ c ∧ c < 10 ^ k := by
      rw [Nat.pow_eq] at hTen
      rcases hCand with rfl | rfl <;> constructor <;> omega
    refine ⟨hk, hDigits.1, hDigits.2, hNear.mem, fun a e ha haMem => ?_, fun a e haK ha => ?_⟩
    · by_contra hLt
      have hBelow : a < 10 ^ (k - 1) := not_le.mp hLt
      rcases Nat.lt_or_ge 1 k with hTwo | hOne
      · exact hFewer (k - 1) (by omega) (by omega) a e hBelow haMem
      · obtain rfl : k = 1 := by omega
        simp at hBelow
        omega
    · obtain ⟨hLe, hTie⟩ := hNear.nearest_decimal hc hLow hHigh hk haK ha
      exact ⟨hLe, fun hEq => (hTie hEq).imp_right And.left⟩

end Interval

/-! ## The rounding interval of a binary64 value -/

section Around

variable {m : ℕ} {q : ℤ} {narrowBelow : Bool}

theorem center_around (m : ℕ) (q : ℤ) (narrowBelow : Bool) :
    (Interval.around m q narrowBelow).center = m * 2 ^ q := by
  simp only [Interval.center, Interval.around, zpow_sub₀ (two_ne_zero : (2 : ℚ) ≠ 0)]
  push_cast
  ring

theorem mem_center_around (hm : m ≠ 0) :
    (Interval.around m q narrowBelow).Mem (Interval.around m q narrowBelow).center := by
  apply Interval.mem_center
  · simp only [Interval.around]
    split_ifs <;> omega
  · simp only [Interval.around]
    omega

/-- Whatever lies nearer to `m · 2 ^ q` than the gap below lies in its interval. -/
theorem mem_around_of_abs_lt (hm : m ≠ 0) {r : ℚ}
    (h : |r - m * 2 ^ q| < (if narrowBelow then 1 / 4 else 1 / 2) * 2 ^ q) :
    (Interval.around m q narrowBelow).Mem r := by
  have hPow : (0 : ℚ) < 2 ^ q := zpow_pos two_pos q
  have hBelow : (if narrowBelow then (1 : ℚ) / 4 else 1 / 2) ≤ 1 / 2 := by
    split_ifs <;> norm_num
  have hScaled : |r / 2 ^ q - m| < if narrowBelow then 1 / 4 else 1 / 2 := by
    rw [← mul_lt_mul_iff_of_pos_right hPow, ← abs_of_pos hPow, ← abs_mul, abs_of_pos hPow, sub_mul,
      div_mul_cancel₀ _ hPow.ne']
    exact h
  obtain ⟨hLow, hHigh⟩ := abs_lt.mp hScaled
  rw [mem_around_iff hm]
  exact ⟨.inl (by linarith), .inl (by linarith)⟩

end Around

end Decimal

namespace Binary64

section Finite

variable {x : Binary64} {negative : Bool} {m : ℕ} {q : ℤ}

theorem value_pos {m : ℕ} {q : ℤ} (hm : m ≠ 0) : (0 : ℚ) < m * 2 ^ q :=
  mul_pos (by exact_mod_cast Nat.pos_of_ne_zero hm) (zpow_pos two_pos q)

/-- The decimal exponent of a finite nonzero value, found by `exponentOf`. -/
theorem exponentOf_eq_log (hx : x.kind = .finite negative m q) (hm : m ≠ 0) :
    Decimal.exponentOf m q = Int.log 10 ((m : ℚ) * 2 ^ q) + 1 := by
  have hLog : m.log2 < 53 := (Nat.log2_lt hm).mpr (by rcases kind_finite_bounds hx with h | h <;> omega)
  apply Decimal.exponentOf_eq hm
  · rcases kind_finite_bounds hx with h | h <;> omega
  · rcases kind_finite_bounds hx with h | h <;> omega

/-- **Seventeen digits suffice**: the grid `10 ^ (n - 17)` is finer than the interval of a
binary64 value is wide, because `2 ^ 53 < 10 ^ 16`. -/
theorem exists_grid_seventeen (hx : x.kind = .finite negative m q) (hm : m ≠ 0) :
    ∃ t : ℕ, (Decimal.Interval.around m q (m = Nat.pow 2 52 && 1 < x.biased)).Mem
      (t * 10 ^ (Decimal.exponentOf m q - 17)) := by
  rw [exponentOf_eq_log hx hm]
  set iv := Decimal.Interval.around m q (m = Nat.pow 2 52 && 1 < x.biased)
  set n := Int.log 10 ((m : ℚ) * 2 ^ q) + 1 with hn
  set g := n - 17
  have hCenter : iv.center = m * 2 ^ q := Decimal.center_around _ _ _
  have hLow : (10 : ℚ) ^ (n - 1) ≤ m * 2 ^ q := by
    have hLog : ((10 : ℕ) : ℚ) ^ Int.log 10 ((m : ℚ) * 2 ^ q) ≤ m * 2 ^ q :=
      Int.zpow_log_le_self (by norm_num) (value_pos hm)
    rwa [hn, add_sub_cancel_right, ← Nat.cast_ofNat]
  -- the grid step is at most a `10 ^ 16`-th of the value
  have hStep : (10 : ℚ) ^ g * 10 ^ 16 ≤ m * 2 ^ q := by
    have hSplit := (Decimal.Interval.ten_zpow_eq_mul n (by norm_num : 1 ≤ 17)).1
    rw [mul_comm]
    exact hSplit ▸ hLow
  have hBound : m < 2 ^ 53 := by rcases kind_finite_bounds hx with h | h <;> omega
  -- the nearer of the two multiples around the value is within half a step of it
  refine ⟨iv.nearer ⌊iv.center / 10 ^ g⌋₊ g, Decimal.mem_around_of_abs_lt hm ?_⟩
  have hHalf := (Decimal.Interval.nearestEven_nearer iv g).abs_sub_le
  rw [← hCenter, Decimal.Interval.abs_grid_sub, abs_sub_comm]
  have hGrid : |iv.center / 10 ^ g - (iv.nearer ⌊iv.center / 10 ^ g⌋₊ g : ℕ)| * 10 ^ g ≤
      1 / 2 * 10 ^ g :=
    mul_le_mul_of_nonneg_right hHalf (zpow_pos (by norm_num) g).le
  have hGridPos : (0 : ℚ) < 10 ^ g := zpow_pos (by norm_num) g
  have hPow : (0 : ℚ) < 2 ^ q := zpow_pos two_pos q
  refine hGrid.trans_lt ?_
  split_ifs with hNarrow
  · -- a power of two: `m = 2 ^ 52` and `2 ^ 53 < 10 ^ 16`
    have hm52 : (m : ℚ) = 2 ^ 52 := by exact_mod_cast ((narrowBelow_iff hx).mp hNarrow).1
    rw [hm52] at hStep
    linarith
  · have hmCast : (m : ℚ) * 2 ^ q < 2 ^ 53 * 2 ^ q :=
      mul_lt_mul_of_pos_right (by exact_mod_cast hBound) hPow
    linarith

/-- **No tie between `9` and `10`**: a binary64 value never lies half way between
`9 · 10 ^ (n - 1)` and `10 ^ n` with `10 ^ n` in its interval. Such a value would be at most
`9.5` units of `2 ^ q`, so subnormal, and `2 m · 10 ^ (1 - n) = 19 · 2 ^ 1074` has no factor
five on the right. -/
theorem no_tie_at_power (hx : x.kind = .finite negative m q) (hm : m ≠ 0) (n : ℤ)
    (hMem : (Decimal.Interval.around m q (m = Nat.pow 2 52 && 1 < x.biased)).Mem (10 ^ n))
    (hTie : 2 * ((m : ℚ) * 2 ^ q) = 19 * 10 ^ (n - 1)) : False := by
  have hPow : (0 : ℚ) < 2 ^ q := zpow_pos two_pos q
  have hTen : (10 : ℚ) ^ n = 10 * 10 ^ (n - 1) := by
    rw [← zpow_one_add₀ (by norm_num)]
    congr 1
    ring
  -- `10 ^ n` is at most half a unit above the value
  have hAbove : (10 : ℚ) ^ n ≤ (m + 1 / 2) * 2 ^ q := by
    have hRound := ((Decimal.mem_around_iff hm).mp hMem).2
    have hLe : (10 : ℚ) ^ n / 2 ^ q ≤ m + 1 / 2 := by
      rcases hRound with h | ⟨-, h⟩
      · exact h.le
      · exact h.le
    rwa [div_le_iff₀ hPow] at hLe
  have hUnit : (10 : ℚ) ^ (n - 1) ≤ 2 ^ q := by nlinarith
  have hSmall : m ≤ 9 := by
    have : (m : ℚ) * 2 ^ q < 10 * 2 ^ q := by nlinarith
    have : (m : ℚ) < 10 := lt_of_mul_lt_mul_right this hPow.le
    have : m < 10 := by exact_mod_cast this
    omega
  obtain ⟨rfl, -⟩ : q = -1074 ∧ m < 2 ^ 52 := by
    rcases kind_finite_bounds hx with h | h
    · exact h
    · omega
  -- below one, so `n - 1 = -u` with `u ≥ 1`
  have hNeg : n - 1 < 0 := by
    by_contra hNonneg
    have hOne : (1 : ℚ) ≤ 10 ^ (n - 1) := one_le_zpow₀ (by norm_num) (by omega)
    have hTiny : (2 : ℚ) ^ (-1074 : ℤ) < 1 := zpow_lt_one_of_neg₀ (by norm_num) (by norm_num)
    linarith
  set u := (1 - n).toNat with hu
  have hExp : n - 1 = -(u : ℤ) := by omega
  rw [hExp, zpow_neg, zpow_neg, zpow_natCast, zpow_ofNat] at hTie
  have hNat : 2 * m * 10 ^ u = 19 * 2 ^ 1074 := by
    have hTwo : (2 : ℚ) ^ 1074 ≠ 0 := by positivity
    have hTenU : (10 : ℚ) ^ u ≠ 0 := by positivity
    have hQ : (2 : ℚ) * m * 10 ^ u = 19 * 2 ^ 1074 := by
      generalize (2 : ℚ) ^ 1074 = P at hTie hTwo ⊢
      calc (2 : ℚ) * m * 10 ^ u = 2 * m * 10 ^ u * (P⁻¹ * P) := by
            rw [inv_mul_cancel₀ hTwo, mul_one]
        _ = 2 * (m * P⁻¹) * (P * 10 ^ u) := by ring
        _ = 19 * (10 ^ u)⁻¹ * (P * 10 ^ u) := by rw [hTie]
        _ = 19 * P := by
            rw [mul_comm P, ← mul_assoc, mul_assoc 19, inv_mul_cancel₀ hTenU, mul_one]
    apply Nat.cast_injective (?_ : ((2 * m * 10 ^ u : ℕ) : ℚ) = ((19 * 2 ^ 1074 : ℕ) : ℚ))
    rw [Nat.cast_mul, Nat.cast_mul, Nat.cast_mul, Nat.cast_pow, Nat.cast_pow, Nat.cast_ofNat,
      Nat.cast_ofNat, Nat.cast_ofNat]
    exact hQ
  have hFive : 5 ∣ 19 * 2 ^ 1074 := by
    rw [← hNat]
    exact Dvd.dvd.mul_left (dvd_pow (by norm_num) (by omega)) _
  exact absurd hFive (by decide +kernel)

end Finite

end Binary64

namespace Decimal

/-- **`shortest` gives the standard's decimal** for every finite nonzero binary64 value. -/
theorem shortest_shortestIn {x : Binary64} {negative : Bool} {m : ℕ} {q : ℤ}
    (hx : x.kind = .finite negative m q) (hm : m ≠ 0) :
    (shortest m q (m = Nat.pow 2 52 && 1 < x.biased)).ShortestIn
      (Interval.around m q (m = Nat.pow 2 52 && 1 < x.biased)) := by
  have hCenter := center_around m q (m = Nat.pow 2 52 && 1 < x.biased)
  have hPos : (0 : ℚ) < m * 2 ^ q := Binary64.value_pos hm
  have hExp := Binary64.exponentOf_eq_log hx hm
  rw [shortest_eq]
  apply Interval.search_shortestIn (mem_center_around hm)
  · have hLog : ((10 : ℕ) : ℚ) ^ Int.log 10 ((m : ℚ) * 2 ^ q) ≤ m * 2 ^ q :=
      Int.zpow_log_le_self (by norm_num) hPos
    rwa [hCenter, hExp, add_sub_cancel_right, ← Nat.cast_ofNat]
  · have hLog : (m : ℚ) * 2 ^ q < ((10 : ℕ) : ℚ) ^ (Int.log 10 ((m : ℚ) * 2 ^ q) + 1) :=
      Int.lt_zpow_succ_log_self (by norm_num) _
    rwa [hCenter, hExp, ← Nat.cast_ofNat]
  · exact Binary64.exists_grid_seventeen hx hm
  · intro hMem hTie
    rw [hCenter] at hTie
    exact Binary64.no_tie_at_power hx hm _ hMem hTie

end Decimal

end Transcode
