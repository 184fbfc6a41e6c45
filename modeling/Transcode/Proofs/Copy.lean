import Transcode.Copy
import Transcode.Charset.Convert
import Transcode.Proofs.Binary64.Value
import Transcode.Proofs.Text.CodePoints

/-!
# Copying ranges and converting elements

An element of a number array is stored in a 32-bit cell by truncating the number it denotes
toward zero and wrapping modulo `2 ^ 32`, and read as a byte through the low eight bits of that
cell. `Binary64.Value` gives both in terms of the denoted number; this module applies that to
the operations that store and read elements, and gives the full contracts of `copyOfRange` and
`copyOf`.

The range check of `copyOfRange` is stated on the numbers its bounds denote (`Check.InRange`): a
bound passes when it is a natural number at most the source's length and at most `2 ^ 53 - 1`.
The check compares with the length as a binary64 value, which is exact only up to `2 ^ 53`;
beyond it the length rounds to at least `2 ^ 53`, above every safe integer, so the comparison
still agrees with the numbers (`Check.gt_ofNat_iff`).

## Main results

* `element_conversions`: 32-bit stores wrap, byte reads are the truncation modulo `256`, so
  decoding an array of numbers is decoding its 8-bit conversion, and a second store of an int32
  changes nothing.
* `copyOfRange_contract`: which fault `copyOfRange` reports, in which order, and the copy it
  returns otherwise.
* `copyOf_contract`: the same for `copyOf`, whose copy keeps the cells below both lengths and
  pads with zeros.
-/

namespace Transcode

namespace Check

/-- `x` is a safe integer in `[0, n]`: it denotes a natural number `i ≤ n` with
`i ≤ 2 ^ 53 - 1`. -/
def InRange (x : Binary64) (n : ℕ) : Prop :=
  ∃ i : ℕ, x.toRat? = some (i : ℚ) ∧ i ≤ 2 ^ 53 - 1 ∧ i ≤ n

/-- A safe integer compares with a length as the numbers do, also past `2 ^ 53` where the
length is rounded. -/
theorem gt_ofNat_iff {x : Binary64} {z : ℤ} (hx : x.toRat? = some (z : ℚ))
    (hz : z.natAbs ≤ 2 ^ 53 - 1) (n : ℕ) : x.gt (.ofNat n) = true ↔ (n : ℤ) < z := by
  by_cases hn : n ≤ 2 ^ 53
  · rw [Binary64.gt_iff hx (Binary64.toRat?_ofNat hn)]
    exact_mod_cast Iff.rfl
  · -- the rounded length is at least `2 ^ 53`, or infinite: above `z` either way
    have hBelow : z < n := by omega
    rcases Binary64.ofNat_large (n := n) (by omega) with hInf | ⟨v, hv, hBig⟩
    · rw [Binary64.gt_infinity_false hx hInf]
      simp only [Bool.false_eq_true, false_iff, not_lt]
      exact hBelow.le
    · rw [Binary64.gt_iff hx hv]
      have hzBound : (z : ℚ) < 2 ^ 53 := by exact_mod_cast (by omega : z < 2 ^ 53)
      constructor
      · intro h
        exact absurd (lt_trans h hzBound) (not_lt.mpr hBig)
      · intro h
        omega

/-- A safe integer that is not negative denotes a natural number, `-0` included. -/
theorem exists_nat_of_safe {x : Binary64} (hSafe : x.isSafeInteger = true)
    (hNonneg : x.isNegative = false) : ∃ i : ℕ, x.toRat? = some (i : ℚ) ∧ i ≤ 2 ^ 53 - 1 := by
  obtain ⟨z, hz, hzBound⟩ := (Binary64.isSafeInteger_iff x).mp hSafe
  have hz0 : 0 ≤ z := by
    by_contra hNeg
    have := (Binary64.isNegative_iff hz).mpr (by exact_mod_cast (not_le.mp hNeg))
    simp [this] at hNonneg
  refine ⟨z.toNat, ?_, by omega⟩
  rw [hz]
  congr 1
  exact_mod_cast (Int.toNat_of_nonneg hz0).symm

/-- A natural number at most `2 ^ 53 - 1` is a safe integer that is not negative. -/
theorem safe_of_nat {x : Binary64} {i : ℕ} (hi : x.toRat? = some (i : ℚ))
    (hBound : i ≤ 2 ^ 53 - 1) : x.isSafeInteger = true ∧ x.isNegative = false := by
  have hi' : x.toRat? = some ((i : ℤ) : ℚ) := by rw [hi, Int.cast_natCast]
  refine ⟨(Binary64.isSafeInteger_iff x).mpr ⟨i, hi', by omega⟩, ?_⟩
  cases hNeg : x.isNegative
  · rfl
  · exact absurd ((Binary64.isNegative_iff hi').mp hNeg) (not_lt.mpr (by positivity))

/-- **The bound test of a range check**: a bound passes against a length `n` exactly when it is
a safe integer in `[0, n]`, `-0` included. -/
theorem inBounds_ofNat_iff (x : Binary64) (n : ℕ) :
    inBounds x (.ofNat n) = true ↔ InRange x n := by
  unfold inBounds InRange
  simp only [Bool.and_eq_true, Bool.not_eq_true']
  constructor
  · rintro ⟨⟨hSafe, hNonneg⟩, hAbove⟩
    obtain ⟨i, hi, hiBound⟩ := exists_nat_of_safe hSafe hNonneg
    have hi' : x.toRat? = some ((i : ℤ) : ℚ) := by rw [hi, Int.cast_natCast]
    have hin : i ≤ n := by
      by_contra hGt
      have := (gt_ofNat_iff hi' (by omega) n).mpr (by omega)
      simp [this] at hAbove
    exact ⟨i, hi, hiBound, hin⟩
  · rintro ⟨i, hi, hiBound, hin⟩
    have hi' : x.toRat? = some ((i : ℤ) : ℚ) := by rw [hi, Int.cast_natCast]
    refine ⟨safe_of_nat hi hiBound, ?_⟩
    cases hGt : x.gt (.ofNat n)
    · rfl
    · have := (gt_ofNat_iff hi' (by omega) n).mp hGt
      omega

/-- The range check refuses a start that fails the bound test, naming `from`. -/
theorem indexRange_from {lo : Binary64} {n : ℕ} (h : ¬ InRange lo n) (hi : Binary64) :
    indexRange lo hi (.ofNat n) = .error (outside "from" lo (.ofNat n)) := by
  rw [← inBounds_ofNat_iff, Bool.not_eq_true] at h
  simp [indexRange, h]

/-- After the start, the range check refuses an end that fails the bound test, naming `upto`. -/
theorem indexRange_upto {lo hi : Binary64} {n : ℕ} (hLo : InRange lo n) (hHi : ¬ InRange hi n) :
    indexRange lo hi (.ofNat n) = .error (outside "upto" hi (.ofNat n)) := by
  rw [← inBounds_ofNat_iff] at hLo
  rw [← inBounds_ofNat_iff, Bool.not_eq_true] at hHi
  simp [indexRange, hLo, hHi]

/-- With both bounds in range, the check compares them as the numbers they denote. -/
theorem indexRange_of_inRange {lo hi : Binary64} {n i j : ℕ} (hLoVal : lo.toRat? = some (i : ℚ))
    (hHiVal : hi.toRat? = some (j : ℚ)) (hLo : InRange lo n) (hHi : InRange hi n) :
    indexRange lo hi (.ofNat n) = if j < i then .error (misordered lo hi) else .ok () := by
  have hOrder : lo.gt hi = decide (j < i) := by
    rw [Bool.eq_iff_iff, Binary64.gt_iff hLoVal hHiVal, decide_eq_true_iff]
    exact_mod_cast Iff.rfl
  rw [← inBounds_ofNat_iff] at hLo hHi
  simp only [indexRange, hLo, hHi, hOrder, Bool.not_true, Bool.false_eq_true, if_false,
    decide_eq_true_eq]

end Check

/-! ## Element conversions -/

/-- **Element conversions wrap.** For every number `x`, with `t` the number it denotes truncated
toward zero (`0` for a NaN or an infinity):
* the 32-bit cell a copy stores for `x` holds the unique `r` in `[-2 ^ 31, 2 ^ 31)` with
  `r ≡ t` modulo `2 ^ 32`;
* the byte read from `x` through the mask `0xff` is `t` modulo `256`, the byte an 8-bit store
  keeps; so decoding an array of numbers, in any charset, decodes its 8-bit conversion;
* a number that denotes a stored cell value stores as that same cell. -/
theorem element_conversions :
    (∀ (x : Binary64) (r : ℤ), x.toInt32.toInt = r ↔
      -2 ^ 31 ≤ r ∧ r < 2 ^ 31 ∧ r ≡ x.truncatedValue [ZMOD 2 ^ 32]) ∧
    (∀ x : Binary64, (x.maskByte.toNat : ℤ) = x.truncatedValue % 256 ∧ x.maskByte = x.toUInt8) ∧
    (∀ (xs : List Binary64) (spec : CharsetSpec), getString (some (.numbers xs)) (some spec) =
      (resolveCharset spec).map fun c => c.decode (xs.map Binary64.toUInt8)) ∧
    (∀ x y : Binary64, y.toRat? = some (x.toInt32.toInt : ℚ) → y.toInt32 = x.toInt32) := by
  refine ⟨fun x r => ?_, fun x => ?_, fun xs spec => ?_, fun x y hy => ?_⟩
  · rw [← Binary64.truncate_eq_truncatedValue]
    exact Binary64.toInt32_toInt_eq_iff x r
  · rw [Binary64.maskByte_eq_toUInt8, ← Binary64.truncate_eq_truncatedValue]
    exact ⟨Binary64.toUInt8_toNat x, rfl⟩
  · have hBytes : (ByteSource.numbers xs).toBytes = xs.map Binary64.toUInt8 := by
      simp only [ByteSource.toBytes, List.map_inj_left]
      exact fun x _ => Binary64.maskByte_eq_toUInt8 x
    simp only [getString, Check.present, bind, Except.bind, hBytes]
    cases resolveCharset spec <;> rfl
  · -- the number denotes an integer already in range, so it truncates and wraps to itself
    rw [Binary64.toInt32, Binary64.truncate_of_toRat? hy, Int32.ofInt_toInt]

/-- The conversions at `2 ^ 31`, which wraps to `-2 ^ 31`: the pattern of `-2 ^ 31` stores as
the same cell. -/
theorem element_conversions_wrap :
    (⟨0xC1E0000000000000⟩ : Binary64).toRat? =
        some (((⟨0x41E0000000000000⟩ : Binary64).toInt32.toInt : ℤ) : ℚ) ∧
      (⟨0xC1E0000000000000⟩ : Binary64).toInt32 = (⟨0x41E0000000000000⟩ : Binary64).toInt32 :=
  have hKind : (⟨0xC1E0000000000000⟩ : Binary64).kind = .finite true (2 ^ 52) (-21) := by decide
  have hCell : (⟨0x41E0000000000000⟩ : Binary64).toInt32.toInt = -2 ^ 31 := by decide
  have hValue : (⟨0xC1E0000000000000⟩ : Binary64).toRat? =
      some (((⟨0x41E0000000000000⟩ : Binary64).toInt32.toInt : ℤ) : ℚ) := by
    rw [Binary64.toRat?_of_kind hKind, hCell]
    norm_num [Binary64.dyadic]
  ⟨hValue, element_conversions.2.2.2 _ _ hValue⟩

/-! ## The contract of `copyOfRange` -/

/-- With all three arguments present, `copyOfRange` is the range check and then the copy of the
cells from the start's truncation to the end's. -/
theorem copyOfRange_some (s : Source) (lo hi : Binary64) :
    copyOfRange (some s) (some lo) (some hi) =
      (Check.indexRange lo hi (.ofNat s.size)).bind fun _ =>
        .ok ((s.toCells.drop lo.truncate.toNat).take (hi.truncate.toNat - lo.truncate.toNat)) := by
  simp only [copyOfRange, Check.present, bind, Except.bind]
  cases Check.indexRange lo hi (.ofNat s.size) <;> rfl

/-- The cells of `[i, j)`: `j - i` of them, the `k`-th being the cell at `i + k`. -/
theorem take_drop_getElem? (cells : List Int32) (i j k : ℕ) :
    ((cells.drop i).take (j - i))[k]? = if k < j - i then cells[i + k]? else none := by
  rw [List.getElem?_take]
  split
  · rw [List.getElem?_drop]
  · rfl

/-- **The contract of `copyOfRange`.** Absent arguments are refused first, the source, then the
start, then the end. Then the start must be a safe integer in `[0, |s|]` (fault on `from`), then
the end (fault on `upto`), then the start may not exceed the end (fault on `from`, saying so).
The copy succeeds exactly when the bounds denote natural numbers `i ≤ j ≤ |s|` with `j` a safe
integer (`-0` denoting `0`), and then holds the `j - i` cells of the source from `i` on, each
element stored as a 32-bit cell. -/
theorem copyOfRange_contract :
    (∀ lo hi, copyOfRange none lo hi = .error (.nullArgument (.ofString "copyOfRange(null, ...)"))) ∧
    (∀ s hi, copyOfRange (some s) none hi =
      .error (.nullArgument (.ofString "copyOfRange(..., null, ...)"))) ∧
    (∀ s lo, copyOfRange (some s) (some lo) none =
      .error (.nullArgument (.ofString "copyOfRange(..., null)"))) ∧
    (∀ s lo hi, ¬ Check.InRange lo s.size → copyOfRange (some s) (some lo) (some hi) =
      .error (Check.outside "from" lo (.ofNat s.size))) ∧
    (∀ s lo hi, Check.InRange lo s.size → ¬ Check.InRange hi s.size →
      copyOfRange (some s) (some lo) (some hi) = .error (Check.outside "upto" hi (.ofNat s.size))) ∧
    (∀ s lo hi (i j : ℕ), lo.toRat? = some (i : ℚ) → hi.toRat? = some (j : ℚ) →
      i ≤ s.size → i ≤ 2 ^ 53 - 1 → j < i →
      copyOfRange (some s) (some lo) (some hi) = .error (Check.misordered lo hi)) ∧
    (∀ s lo hi, (∃ r, copyOfRange (some s) (some lo) (some hi) = .ok r) ↔
      ∃ i j : ℕ, lo.toRat? = some (i : ℚ) ∧ hi.toRat? = some (j : ℚ) ∧
        i ≤ j ∧ j ≤ s.size ∧ j ≤ 2 ^ 53 - 1) ∧
    (∀ s lo hi (i j : ℕ), lo.toRat? = some (i : ℚ) → hi.toRat? = some (j : ℚ) →
      i ≤ j → j ≤ s.size → j ≤ 2 ^ 53 - 1 →
      ∃ r, copyOfRange (some s) (some lo) (some hi) = .ok r ∧ r.length = j - i ∧
        ∀ k < j - i, r[k]? = s.toCells[i + k]?) := by
  -- the copy taken when both bounds pass and are in order
  have hCopy : ∀ (s : Source) (lo hi : Binary64) (i j : ℕ), lo.toRat? = some (i : ℚ) →
      hi.toRat? = some (j : ℚ) → i ≤ j → j ≤ s.size → j ≤ 2 ^ 53 - 1 →
      copyOfRange (some s) (some lo) (some hi) = .ok ((s.toCells.drop i).take (j - i)) := by
    intro s lo hi i j hi' hj' hij hjn hjb
    have hLo : Check.InRange lo s.size := ⟨i, hi', by omega, by omega⟩
    have hHi : Check.InRange hi s.size := ⟨j, hj', hjb, hjn⟩
    have hLoCell : lo.truncate = i := Binary64.truncate_of_toRat? (by rw [hi', Int.cast_natCast])
    have hHiCell : hi.truncate = j := Binary64.truncate_of_toRat? (by rw [hj', Int.cast_natCast])
    rw [copyOfRange_some, Check.indexRange_of_inRange hi' hj' hLo hHi, if_neg (by omega),
      hLoCell, hHiCell, Int.toNat_natCast, Int.toNat_natCast]
    rfl
  refine ⟨fun _ _ => rfl, fun _ _ => rfl, fun _ _ => rfl, fun s lo hi hLo => ?_,
    fun s lo hi hLo hHi => ?_, fun s lo hi i j hi' hj' hin hib hji => ?_, fun s lo hi => ?_,
    fun s lo hi i j hi' hj' hij hjn hjb => ?_⟩
  · rw [copyOfRange_some, Check.indexRange_from hLo]
    rfl
  · rw [copyOfRange_some, Check.indexRange_upto hLo hHi]
    rfl
  · have hLo : Check.InRange lo s.size := ⟨i, hi', hib, hin⟩
    have hHi : Check.InRange hi s.size := ⟨j, hj', by omega, by omega⟩
    rw [copyOfRange_some, Check.indexRange_of_inRange hi' hj' hLo hHi, if_pos hji]
    rfl
  · constructor
    · -- a success passed all three checks, in turn
      rintro ⟨r, hr⟩
      by_cases hLo : Check.InRange lo s.size
      · by_cases hHi : Check.InRange hi s.size
        · obtain ⟨i, hi', hib, hin⟩ := hLo
          obtain ⟨j, hj', hjb, hjn⟩ := hHi
          refine ⟨i, j, hi', hj', ?_, hjn, hjb⟩
          by_contra hji
          rw [copyOfRange_some, Check.indexRange_of_inRange hi' hj' ⟨i, hi', hib, hin⟩
            ⟨j, hj', hjb, hjn⟩, if_pos (by omega)] at hr
          cases hr
        · rw [copyOfRange_some, Check.indexRange_upto hLo hHi] at hr
          cases hr
      · rw [copyOfRange_some, Check.indexRange_from hLo] at hr
        cases hr
    · rintro ⟨i, j, hi', hj', hij, hjn, hjb⟩
      exact ⟨_, hCopy s lo hi i j hi' hj' hij hjn hjb⟩
  · have hLength : j ≤ s.toCells.length := by
      cases s <;> simp_all [Source.size, Source.toCells]
    refine ⟨_, hCopy s lo hi i j hi' hj' hij hjn hjb, by simp; omega, fun k hk => ?_⟩
    rw [take_drop_getElem?, if_pos hk]

/-- The contract at two inputs: `-0` and `2` copy the first two elements of a number array,
wrapped (`1.5` stores `1`, `2 ^ 32` stores `0`); `3` and `1` are out of order. -/
theorem copyOfRange_contract_examples :
    (∃ r, copyOfRange (some (.numbers [⟨0x3FF8000000000000⟩, ⟨0x41F0000000000000⟩,
        ⟨0x7FF8000000000000⟩])) (some ⟨0x8000000000000000⟩) (some ⟨0x4000000000000000⟩) = .ok r ∧
      r.length = 2 - 0 ∧ ∀ k < 2 - 0, r[k]? = (Source.numbers [⟨0x3FF8000000000000⟩,
        ⟨0x41F0000000000000⟩, ⟨0x7FF8000000000000⟩]).toCells[0 + k]?) ∧
    copyOfRange (some (.numbers [⟨0x3FF8000000000000⟩, ⟨0x41F0000000000000⟩,
        ⟨0x7FF8000000000000⟩, ⟨0xBFF0000000000000⟩])) (some ⟨0x4008000000000000⟩)
        (some ⟨0x3FF0000000000000⟩) =
      .error (Check.misordered ⟨0x4008000000000000⟩ ⟨0x3FF0000000000000⟩) :=
  -- `-0`, `1`, `2` and `3` as the numbers they denote
  have hNegZero : (⟨0x8000000000000000⟩ : Binary64).toRat? = some ((0 : ℕ) : ℚ) := by
    rw [Binary64.toRat?_of_kind (by decide : (⟨0x8000000000000000⟩ : Binary64).kind =
      .finite true 0 (-1074))]
    norm_num [Binary64.dyadic]
  have hOne : (⟨0x3FF0000000000000⟩ : Binary64).toRat? = some ((1 : ℕ) : ℚ) := by
    rw [Binary64.toRat?_of_kind (by decide : (⟨0x3FF0000000000000⟩ : Binary64).kind =
      .finite false (2 ^ 52) (-52))]
    norm_num [Binary64.dyadic]
  have hTwo : (⟨0x4000000000000000⟩ : Binary64).toRat? = some ((2 : ℕ) : ℚ) := by
    rw [Binary64.toRat?_of_kind (by decide : (⟨0x4000000000000000⟩ : Binary64).kind =
      .finite false (2 ^ 52) (-51))]
    norm_num [Binary64.dyadic]
  have hThree : (⟨0x4008000000000000⟩ : Binary64).toRat? = some ((3 : ℕ) : ℚ) := by
    rw [Binary64.toRat?_of_kind (by decide : (⟨0x4008000000000000⟩ : Binary64).kind =
      .finite false (2 ^ 51 + 2 ^ 52) (-51))]
    norm_num [Binary64.dyadic]
  ⟨copyOfRange_contract.2.2.2.2.2.2.2 _ _ _ 0 2 hNegZero hTwo (by decide) (by decide) (by decide),
    copyOfRange_contract.2.2.2.2.2.1 _ _ _ 3 1 hThree hOne (by decide) (by decide) (by decide)⟩

/-! ## The contract of `copyOf` -/

namespace Check

/-- `x` is a length: it denotes a natural number at most `2 ^ 53 - 1`, that is a safe integer
that is not below zero (`-0` denotes `0`). -/
def IsLength (x : Binary64) : Prop := ∃ i : ℕ, x.toRat? = some (i : ℚ) ∧ i ≤ 2 ^ 53 - 1

/-- **The length test** passes exactly the numbers that denote a natural number at most
`2 ^ 53 - 1`. -/
theorem safeNonneg_iff (x : Binary64) :
    (x.isSafeInteger && !x.isNegative) = true ↔ IsLength x := by
  rw [Bool.and_eq_true, Bool.not_eq_true']
  constructor
  · rintro ⟨hSafe, hNonneg⟩
    exact exists_nat_of_safe hSafe hNonneg
  · rintro ⟨i, hi, hBound⟩
    exact safe_of_nat hi hBound

theorem length_of_isLength {x : Binary64} (h : IsLength x) (param : Text) :
    length param x = .ok x := by
  rw [← safeNonneg_iff] at h
  simp [length, h]

/-- A number that is no length is refused with its parameter, its value and its text. -/
theorem length_of_not_isLength {x : Binary64} (h : ¬ IsLength x) (param : Text) :
    length param x = .error (.argumentRange param (some (.number x))
      (param ++ .ofString " must be a non-negative integer, got " ++ numberText x)) := by
  rw [← safeNonneg_iff, Bool.not_eq_true] at h
  simp [length, h]

end Check

/-- The first `k` cells of a list, then zeros up to `k` cells: what a copy to length `k` holds. -/
def padTo (cells : List Int32) (k : ℕ) : List Int32 :=
  cells.take k ++ List.replicate (k - (cells.take k).length) 0

@[simp] theorem length_padTo (cells : List Int32) (k : ℕ) : (padTo cells k).length = k := by
  simp only [padTo, List.length_append, List.length_replicate, List.length_take]
  omega

/-- A padded list holds the cells below both lengths, then zeros. -/
theorem padTo_getElem? (cells : List Int32) (k i : ℕ) :
    (padTo cells k)[i]? =
      if i < min cells.length k then cells[i]? else if i < k then some 0 else none := by
  unfold padTo
  rw [List.getElem?_append, List.length_take, List.getElem?_take, List.getElem?_replicate]
  by_cases hKept : i < min cells.length k
  · rw [if_pos (by omega), if_pos (by omega), if_pos hKept]
  · -- past the kept cells, an index holds a zero exactly when it is below `k`
    rw [if_neg (by omega), if_neg hKept]
    by_cases hPad : i < k
    · rw [if_pos (by omega), if_pos hPad]
    · rw [if_neg (by omega), if_neg hPad]

theorem padTo_of_le {cells : List Int32} {k : ℕ} (hk : k ≤ cells.length) :
    padTo cells k = cells.take k := by
  simp [padTo, Nat.min_eq_left hk]

theorem padTo_of_ge {cells : List Int32} {k : ℕ} (hk : cells.length ≤ k) :
    padTo cells k = cells ++ List.replicate (k - cells.length) 0 := by
  simp [padTo, List.take_of_length_le hk]

theorem Source.length_toCells (s : Source) : s.toCells.length = s.size := by
  cases s <;> simp [Source.size, Source.toCells]

/-- Memory runs out before arrays get too long: a length that can be given memory is a length
an array may have. -/
theorem maxAllocatedCells_lt_maxCells : maxAllocatedCells < maxCells := by decide

theorem maxAllocatedCells_lt_safe : maxAllocatedCells < 2 ^ 53 - 1 := by
  norm_num [maxAllocatedCells]

/-- With both arguments present, `copyOf` is the length check and then the copy, unless the
array would be too long or memory for it is refused. -/
theorem copyOf_some (s : Source) (n : Binary64) :
    copyOf (some s) (some n) =
      (Check.length (.ofString "length") n).bind fun n =>
        if maxCells < n.truncate.toNat then .error (.arrayLength n.truncate.toNat)
        else if maxAllocatedCells < n.truncate.toNat then .error .allocation
        else .ok (padTo s.toCells n.truncate.toNat) := by
  simp only [copyOf, Check.present, bind, Except.bind]
  cases Check.length (.ofString "length") n with
  | error e => rfl
  | ok m =>
    dsimp only
    split <;> [rfl; split <;> rfl]

/-- A length `k` passes the check and is then limited only by the array bounds. -/
theorem copyOf_of_isLength {s : Source} {n : Binary64} {k : ℕ} (hn : n.toRat? = some (k : ℚ))
    (hk : k ≤ 2 ^ 53 - 1) :
    copyOf (some s) (some n) =
      if maxCells < k then .error (.arrayLength k)
      else if maxAllocatedCells < k then .error .allocation
      else .ok (padTo s.toCells k) := by
  have hCell : n.truncate.toNat = k := by
    rw [Binary64.truncate_of_toRat? (z := k) (by rw [hn, Int.cast_natCast]), Int.toNat_natCast]
  rw [copyOf_some, Check.length_of_isLength ⟨k, hn, hk⟩]
  simp only [Except.bind, hCell]

/-- A length that memory can be given for is copied to. -/
theorem copyOf_of_le_maxAllocatedCells {s : Source} {n : Binary64} {k : ℕ}
    (hn : n.toRat? = some (k : ℚ)) (hk : k ≤ maxAllocatedCells) :
    copyOf (some s) (some n) = .ok (padTo s.toCells k) := by
  have hShort := maxAllocatedCells_lt_maxCells
  rw [copyOf_of_isLength hn (hk.trans maxAllocatedCells_lt_safe.le), if_neg (by omega),
    if_neg (by omega)]

theorem copyOf_of_not_isLength {s : Source} {n : Binary64} (h : ¬ Check.IsLength n) :
    copyOf (some s) (some n) = .error (.argumentRange (.ofString "length") (some (.number n))
      (.ofString "length must be a non-negative integer, got " ++ Check.numberText n)) := by
  rw [copyOf_some, Check.length_of_not_isLength h, ← Text.ofString_append]
  rfl

/-- **The contract of `copyOf`.** Absent arguments are refused first, the source, then the
length. Then the length fault, on `length` with the value and its text, is reported exactly
when the length is not an integer in `[0, 2 ^ 53 - 1]` (`-0` passes, `2 ^ 53` does not). A
length `k` that memory can be given for yields `k` cells: the source's first `min |s| k`
elements stored as 32-bit cells, then zeros. A longer one is refused as too long for an array
or for memory, never with the length fault. -/
theorem copyOf_contract :
    (∀ n, copyOf none n = .error (.nullArgument (.ofString "copyOf(null, ...)"))) ∧
    (∀ s, copyOf (some s) none = .error (.nullArgument (.ofString "copyOf(..., null)"))) ∧
    (∀ s n, copyOf (some s) (some n) = .error (.argumentRange (.ofString "length")
        (some (.number n)) (.ofString "length must be a non-negative integer, got " ++
          Check.numberText n)) ↔
      ¬ ∃ i : ℕ, n.toRat? = some (i : ℚ) ∧ i ≤ 2 ^ 53 - 1) ∧
    (∀ s n (k : ℕ), n.toRat? = some (k : ℚ) → k ≤ maxAllocatedCells →
      ∃ r, copyOf (some s) (some n) = .ok r ∧ r.length = k ∧
        (∀ i < min s.size k, r[i]? = s.toCells[i]?) ∧
        (∀ i, min s.size k ≤ i → i < k → r[i]? = some 0)) ∧
    (∀ s n (k : ℕ), n.toRat? = some (k : ℚ) → k ≤ 2 ^ 53 - 1 → maxAllocatedCells < k →
      copyOf (some s) (some n) = .error (if maxCells < k then .arrayLength k else .allocation)) := by
  refine ⟨fun _ => rfl, fun _ => rfl, fun s n => ⟨fun hFault => ?_, copyOf_of_not_isLength⟩,
    fun s n k hn hk => ?_, fun s n k hn hk hBig => ?_⟩
  · -- a length gives a copy or a fault of the array bounds, never the length fault
    rintro ⟨k, hn, hk⟩
    rw [copyOf_of_isLength hn hk] at hFault
    split_ifs at hFault <;> cases hFault
  · refine ⟨_, copyOf_of_le_maxAllocatedCells hn hk, length_padTo _ _, fun i hi => ?_,
      fun i hi hik => ?_⟩
    · rw [padTo_getElem?, Source.length_toCells, if_pos hi]
    · rw [padTo_getElem?, Source.length_toCells, if_neg (by omega), if_pos hik]
  · rw [copyOf_of_isLength hn hk]
    split_ifs <;> rfl

/-- The contract at `-0`, `3` and `2 ^ 53`: a copy of a number array to length `-0` is empty,
one to length `3` stores `1.5` as `1` and `2 ^ 32` as `0` and pads with one zero, and `2 ^ 53`
is refused as a length. -/
theorem copyOf_contract_examples :
    (∃ r, copyOf (some (.numbers [⟨0x3FF8000000000000⟩, ⟨0x41F0000000000000⟩]))
        (some ⟨0x8000000000000000⟩) = .ok r ∧ r.length = 0) ∧
    (∃ r, copyOf (some (.numbers [⟨0x3FF8000000000000⟩, ⟨0x41F0000000000000⟩]))
        (some (.ofNat 3)) = .ok r ∧ r.length = 3 ∧
      (∀ i < min 2 3, r[i]? = [(1 : Int32), 0][i]?) ∧
      (∀ i, min 2 3 ≤ i → i < 3 → r[i]? = some 0)) ∧
    copyOf (some (.numbers [])) (some (.ofNat (2 ^ 53))) =
      .error (.argumentRange (.ofString "length") (some (.number (.ofNat (2 ^ 53))))
        (.ofString "length must be a non-negative integer, got " ++
          Check.numberText (.ofNat (2 ^ 53)))) :=
  have hNegZero : (⟨0x8000000000000000⟩ : Binary64).toRat? = some ((0 : ℕ) : ℚ) := by
    rw [Binary64.toRat?_of_kind (by decide : (⟨0x8000000000000000⟩ : Binary64).kind =
      .finite true 0 (-1074))]
    norm_num [Binary64.dyadic]
  have hThree : (Binary64.ofNat 3).toRat? = some ((3 : ℕ) : ℚ) :=
    Binary64.toRat?_ofNat (by norm_num)
  have hCells : (Source.numbers [⟨0x3FF8000000000000⟩, ⟨0x41F0000000000000⟩]).toCells =
      [(1 : Int32), 0] := by decide
  -- `2 ^ 53` is exact, one past the largest length
  have hTooLong : ¬ ∃ i : ℕ, (Binary64.ofNat (2 ^ 53)).toRat? = some (i : ℚ) ∧
      i ≤ 2 ^ 53 - 1 := by
    rintro ⟨i, hi, hBound⟩
    rw [Binary64.toRat?_ofNat le_rfl, Option.some.injEq] at hi
    have : i = 2 ^ 53 := by exact_mod_cast hi.symm
    omega
  have hEmpty := copyOf_contract.2.2.2.1
    (.numbers [⟨0x3FF8000000000000⟩, ⟨0x41F0000000000000⟩]) _ 0 hNegZero (by decide)
  have hCopy := copyOf_contract.2.2.2.1
    (.numbers [⟨0x3FF8000000000000⟩, ⟨0x41F0000000000000⟩]) _ 3 hThree (by decide)
  ⟨hEmpty.imp fun _ h => ⟨h.1, h.2.1⟩, hCells ▸ hCopy, (copyOf_contract.2.2.1 _ _).mpr hTooLong⟩

end Transcode
