import Transcode.Proofs.Copy

/-!
# Laws of copying

A copy is the source's cells at an index range (`copyOfRange`), or its first cells padded with
zeros to a length (`copyOf`). Once the arguments pass their checks, both are list operations on
the source's cells: a range is `drop` then `take`, a copy to a length is `padTo`. The laws
between them are then laws of those list operations, and the checks only have to be shown to
pass on every argument the laws speak of.

Copying a copy reads the 32-bit cells the first copy stored, and a cell is stored as itself,
so a second copy converts nothing again.

The laws speak of sources the runtime can hold: no source has more cells than memory is given
for (`Source.Fits`), which is the bound `copyOf` itself obeys. A plain array has fewer still,
below `2 ^ 32`.

## Main results

* `copyOfRange_zero_eq_copyOf`: a range from `0` is a copy to its end.
* `copyOf_eq_copyOfRange_append`: a copy past the source is the whole source and then zeros.
* `copyOfRange_copyOfRange`: a range of a range is a range, at the added offsets.
* `copyOf_copyOf`: copying a copy keeps the cells below all three lengths and pads with zeros.
-/

namespace Transcode

/-- The cells at `[c, d)` of the cells at `[a, b)` are the cells at `[a + c, a + d)`. -/
theorem range_range (cells : List Int32) {a b c d : ℕ} (hcd : c ≤ d) (hdb : d ≤ b - a) :
    (((cells.drop a).take (b - a)).drop c).take (d - c) =
      (cells.drop (a + c)).take ((a + d) - (a + c)) := by
  have hLen : a + d - (a + c) = d - c := by omega
  have hWithin : d - c ≤ b - a - c := by omega
  rw [List.drop_take, List.drop_drop, List.take_take, Nat.min_eq_left hWithin, hLen]

@[simp] theorem Source.toCells_cells (cells : List Int32) : (Source.cells cells).toCells = cells :=
  rfl

@[simp] theorem Source.size_cells (cells : List Int32) : (Source.cells cells).size = cells.length :=
  rfl

/-- A source the runtime can hold: it has no more cells than memory is given for. -/
def Source.Fits (s : Source) : Prop := s.size ≤ maxAllocatedCells

instance (s : Source) : Decidable s.Fits := inferInstanceAs (Decidable (_ ≤ _))

/-- The ends of a range in a source that fits are safe integers. -/
theorem Source.Fits.safe {s : Source} (hs : s.Fits) {j : ℕ} (hj : j ≤ s.size) :
    j ≤ 2 ^ 53 - 1 :=
  (hj.trans hs).trans maxAllocatedCells_lt_safe.le

/-- Bounds that denote natural numbers `i ≤ j ≤ |s|`, with `j` a safe integer, copy the cells of
`[i, j)`. -/
theorem copyOfRange_of_range {s : Source} {lo hi : Binary64} {i j : ℕ}
    (hLo : lo.toRat? = some (i : ℚ)) (hHi : hi.toRat? = some (j : ℚ)) (hij : i ≤ j)
    (hjn : j ≤ s.size) (hjb : j ≤ 2 ^ 53 - 1) :
    copyOfRange (some s) (some lo) (some hi) = .ok ((s.toCells.drop i).take (j - i)) := by
  have hLoIn : Check.InRange lo s.size := ⟨i, hLo, by omega, by omega⟩
  have hHiIn : Check.InRange hi s.size := ⟨j, hHi, hjb, hjn⟩
  have hLoCell : lo.truncate = i := Binary64.truncate_of_toRat? (by rw [hLo, Int.cast_natCast])
  have hHiCell : hi.truncate = j := Binary64.truncate_of_toRat? (by rw [hHi, Int.cast_natCast])
  rw [copyOfRange_some, Check.indexRange_of_inRange hLo hHi hLoIn hHiIn, if_neg (by omega),
    hLoCell, hHiCell, Int.toNat_natCast, Int.toNat_natCast]
  rfl

theorem toRat?_zero_cast {z : Binary64} (hz : z.toRat? = some 0) :
    z.toRat? = some ((0 : ℕ) : ℚ) := by
  rw [hz, Nat.cast_zero]

/-- **A range from `0` is a copy to its end**, for every end up to the source's length. -/
theorem copyOfRange_zero_eq_copyOf {s : Source} (hs : s.Fits) {z x : Binary64} {k : ℕ}
    (hz : z.toRat? = some 0) (hx : x.toRat? = some (k : ℚ)) (hk : k ≤ s.size) :
    copyOfRange (some s) (some z) (some x) = copyOf (some s) (some x) := by
  rw [copyOfRange_of_range (toRat?_zero_cast hz) hx (Nat.zero_le k) hk (hs.safe hk),
    copyOf_of_le_maxAllocatedCells hx (hk.trans hs),
    padTo_of_le (by rw [Source.length_toCells]; exact hk), List.drop_zero, Nat.sub_zero]

/-- **A copy past the source's end** is the whole source, as a range from `0` to its length,
followed by zeros. -/
theorem copyOf_eq_copyOfRange_append {s : Source} {z y n : Binary64} {k : ℕ}
    (hz : z.toRat? = some 0) (hy : y.toRat? = some (s.size : ℚ)) (hn : n.toRat? = some (k : ℚ))
    (hsk : s.size ≤ k) (hk : k ≤ maxAllocatedCells) :
    copyOf (some s) (some n) =
      (copyOfRange (some s) (some z) (some y)).map (· ++ List.replicate (k - s.size) 0) := by
  have hSafe : s.size ≤ 2 ^ 53 - 1 := (hsk.trans hk).trans maxAllocatedCells_lt_safe.le
  have hWhole : (s.toCells.drop 0).take (s.size - 0) = s.toCells := by
    rw [List.drop_zero, Nat.sub_zero, ← Source.length_toCells, List.take_length]
  rw [copyOfRange_of_range (toRat?_zero_cast hz) hy (Nat.zero_le _) le_rfl hSafe, hWhole,
    copyOf_of_le_maxAllocatedCells hn hk,
    padTo_of_ge (by rw [Source.length_toCells]; exact hsk), Source.length_toCells]
  rfl

/-- **A range of a range is a range**: for `a ≤ b ≤ |s|` and `c ≤ d ≤ b - a`, the cells at
`[c, d)` of the copy of `[a, b)` are the copy of `[a + c, a + d)`. -/
theorem copyOfRange_copyOfRange {s : Source} (hs : s.Fits) {lo hi lo' hi' x y : Binary64}
    {a b c d : ℕ} (ha : lo.toRat? = some (a : ℚ)) (hb : hi.toRat? = some (b : ℚ))
    (hc : lo'.toRat? = some (c : ℚ)) (hd : hi'.toRat? = some (d : ℚ))
    (hx : x.toRat? = some ((a + c : ℕ) : ℚ)) (hy : y.toRat? = some ((a + d : ℕ) : ℚ))
    (hab : a ≤ b) (hbs : b ≤ s.size) (hcd : c ≤ d) (hdb : d ≤ b - a) :
    ∃ r, copyOfRange (some s) (some lo) (some hi) = .ok r ∧
      copyOfRange (some (.cells r)) (some lo') (some hi') =
        copyOfRange (some s) (some x) (some y) := by
  have hbSafe := hs.safe hbs
  refine ⟨_, copyOfRange_of_range ha hb hab hbs hbSafe, ?_⟩
  -- the first copy holds exactly `b - a` cells, so `[c, d)` lies inside it
  have hLen : ((s.toCells.drop a).take (b - a)).length = b - a := by
    simp only [List.length_take, List.length_drop, Source.length_toCells]
    omega
  rw [copyOfRange_of_range hc hd hcd (by rw [Source.size_cells, hLen]; exact hdb) (by omega),
    copyOfRange_of_range hx hy (by omega) (by omega) (by omega), Source.toCells_cells,
    range_range _ hcd hdb]

/-- **Copying a copy** to lengths `k`, then `l`, gives `l` cells: the source's cells below
`min |s| k l`, stored once as 32-bit cells, then zeros. -/
theorem copyOf_copyOf (s : Source) {n m : Binary64} {k l : ℕ} (hn : n.toRat? = some (k : ℚ))
    (hm : m.toRat? = some (l : ℚ)) (hk : k ≤ maxAllocatedCells) (hl : l ≤ maxAllocatedCells) :
    ∃ r r', copyOf (some s) (some n) = .ok r ∧ copyOf (some (.cells r)) (some m) = .ok r' ∧
      r'.length = l ∧ (∀ i < min (min s.size k) l, r'[i]? = s.toCells[i]?) ∧
      (∀ i, min (min s.size k) l ≤ i → i < l → r'[i]? = some 0) := by
  refine ⟨_, _, copyOf_of_le_maxAllocatedCells hn hk, copyOf_of_le_maxAllocatedCells hm hl,
    length_padTo _ _, fun i hi => ?_, fun i hi hil => ?_⟩
  · rw [Source.toCells_cells, padTo_getElem?, length_padTo, if_pos (by omega), padTo_getElem?,
      Source.length_toCells, if_pos (by omega)]
  · -- past `min |s| k l`, a cell is a zero of the first copy or of the second
    rw [Source.toCells_cells, padTo_getElem?, length_padTo, if_pos hil]
    by_cases hFirst : i < min k l
    · rw [if_pos hFirst, padTo_getElem?, Source.length_toCells, if_neg (by omega),
        if_pos (by omega)]
    · rw [if_neg hFirst]

/-- **The algebra of copies.** For sources the runtime can hold:
* a range from `0` to `k ≤ |s|` is a copy to length `k`;
* a copy to a length `k ≥ |s|` is the range from `0` to `|s|` followed by `k - |s|` zeros;
* for `a ≤ b ≤ |s|` and `c ≤ d ≤ b - a`, the range `[c, d)` of the range `[a, b)` is the range
  `[a + c, a + d)`;
* a copy to length `l` of a copy to length `k` holds the source's cells below `min |s| k l`
  and zeros for the rest of its `l` cells.

Lengths are those memory can be given for, as `copyOf` requires. -/
theorem copy_algebra :
    (∀ (s : Source) (z x : Binary64) (k : ℕ), s.Fits → z.toRat? = some 0 →
      x.toRat? = some (k : ℚ) → k ≤ s.size →
      copyOfRange (some s) (some z) (some x) = copyOf (some s) (some x)) ∧
    (∀ (s : Source) (z y n : Binary64) (k : ℕ), z.toRat? = some 0 →
      y.toRat? = some (s.size : ℚ) → n.toRat? = some (k : ℚ) → s.size ≤ k →
      k ≤ maxAllocatedCells →
      copyOf (some s) (some n) =
        (copyOfRange (some s) (some z) (some y)).map (· ++ List.replicate (k - s.size) 0)) ∧
    (∀ (s : Source) (lo hi lo' hi' x y : Binary64) (a b c d : ℕ), s.Fits →
      lo.toRat? = some (a : ℚ) → hi.toRat? = some (b : ℚ) → lo'.toRat? = some (c : ℚ) →
      hi'.toRat? = some (d : ℚ) → x.toRat? = some ((a + c : ℕ) : ℚ) →
      y.toRat? = some ((a + d : ℕ) : ℚ) → a ≤ b → b ≤ s.size → c ≤ d → d ≤ b - a →
      ∃ r, copyOfRange (some s) (some lo) (some hi) = .ok r ∧
        copyOfRange (some (.cells r)) (some lo') (some hi') =
          copyOfRange (some s) (some x) (some y)) ∧
    (∀ (s : Source) (n m : Binary64) (k l : ℕ), n.toRat? = some (k : ℚ) →
      m.toRat? = some (l : ℚ) → k ≤ maxAllocatedCells → l ≤ maxAllocatedCells →
      ∃ r r', copyOf (some s) (some n) = .ok r ∧ copyOf (some (.cells r)) (some m) = .ok r' ∧
        r'.length = l ∧ (∀ i < min (min s.size k) l, r'[i]? = s.toCells[i]?) ∧
        (∀ i, min (min s.size k) l ≤ i → i < l → r'[i]? = some 0)) :=
  ⟨fun _ _ _ _ hs hz hx hk => copyOfRange_zero_eq_copyOf hs hz hx hk,
    fun _ _ _ _ _ hz hy hn hsk hk => copyOf_eq_copyOfRange_append hz hy hn hsk hk,
    fun _ _ _ _ _ _ _ _ _ _ _ hs ha hb hc hd hx hy hab hbs hcd hdb =>
      copyOfRange_copyOfRange hs ha hb hc hd hx hy hab hbs hcd hdb,
    fun s _ _ _ _ hn hm hk hl => copyOf_copyOf s hn hm hk hl⟩

/-- The laws on the number array `[1.5, 2 ^ 32, NaN]`, stored as `[1, 0, 0]`: the range `[0, 2)`
is the copy to length `2`; the copy to length `5` is the whole range and two zeros; the range
`[1, 2)` of the range `[1, 3)` is the range `[2, 3)`; and the copy to length `2` of the copy
to length `5` holds the first two cells. -/
theorem copy_algebra_examples :
    let s : Source := .numbers [⟨0x3FF8000000000000⟩, ⟨0x41F0000000000000⟩, ⟨0x7FF8000000000000⟩]
    (s.Fits ∧ (Binary64.zero false).toRat? = some 0 ∧ (Binary64.ofNat 2).toRat? = some (2 : ℕ) ∧
      2 ≤ s.size ∧
      copyOfRange (some s) (some (.zero false)) (some (.ofNat 2)) = copyOf (some s) (some (.ofNat 2))) ∧
    (copyOf (some s) (some (.ofNat 5)) =
      (copyOfRange (some s) (some (.zero false)) (some (.ofNat 3))).map
        (· ++ List.replicate (5 - s.size) 0)) ∧
    (∃ r, copyOfRange (some s) (some (.ofNat 1)) (some (.ofNat 3)) = .ok r ∧
      copyOfRange (some (.cells r)) (some (.ofNat 1)) (some (.ofNat 2)) =
        copyOfRange (some s) (some (.ofNat (1 + 1))) (some (.ofNat (1 + 2)))) ∧
    (∃ r r', copyOf (some s) (some (.ofNat 5)) = .ok r ∧
      copyOf (some (.cells r)) (some (.ofNat 2)) = .ok r' ∧ r'.length = 2 ∧
      (∀ i < min (min s.size 5) 2, r'[i]? = s.toCells[i]?) ∧
      (∀ i, min (min s.size 5) 2 ≤ i → i < 2 → r'[i]? = some 0)) :=
  have hFits : (Source.numbers [⟨0x3FF8000000000000⟩, ⟨0x41F0000000000000⟩,
      ⟨0x7FF8000000000000⟩]).Fits := by decide
  have hNat : ∀ n : ℕ, n ≤ 5 → (Binary64.ofNat n).toRat? = some (n : ℚ) :=
    fun _ hn => Binary64.toRat?_ofNat (by omega)
  have hZero := Binary64.toRat?_zero false
  ⟨⟨hFits, hZero, hNat 2 (by decide), by decide,
      copy_algebra.1 _ _ _ 2 hFits hZero (hNat 2 (by decide)) (by decide)⟩,
    copy_algebra.2.1 _ _ _ _ 5 hZero (hNat 3 (by decide)) (hNat 5 (by decide)) (by decide)
      (by decide),
    copy_algebra.2.2.1 _ _ _ _ _ _ _ 1 3 1 2 hFits (hNat 1 (by decide)) (hNat 3 (by decide))
      (hNat 1 (by decide)) (hNat 2 (by decide)) (hNat 2 (by decide)) (hNat 3 (by decide))
      (by decide) (by decide) (by decide) (by decide),
    copy_algebra.2.2.2 _ _ _ 5 2 (hNat 5 (by decide)) (hNat 2 (by decide)) (by decide)
      (by decide)⟩

end Transcode
