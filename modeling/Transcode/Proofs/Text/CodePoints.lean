import Transcode.Text.Basic

/-!
# Reading a text by code point

`Text.codePoints` pairs a high surrogate with the low surrogate right after it and yields every
other unit on its own; `Text.scrubUnits` and `Text.loneCountOf` walk the units with the same
pairing rule, and `Text.ofCodePoints` writes code points back as units. This module ties the
four together.

The pivot is that a code point read from a text lies in the surrogate range exactly when it is
a lone surrogate of the text: a pair reads as one value of at least `10000`. So "no lone
surrogate" is "every code point is a scalar value" (`Text.WellFormed`), scrubbing replaces
exactly the surrogate code points, and the lone count is the number of surrogate code points.

## Main results

* `ofCodePoints_codePoints`: writing back the code points of a text gives the text.
* `codePoints_ofCodePoints`: reading back the units of scalar values gives the values.
* `codePoints_scrub`: scrubbing replaces exactly the surrogate code points.
* `scrub_eq_self_iff`: scrubbing keeps a text exactly when it has no lone surrogate.
-/

namespace Transcode.Text

/-- A Unicode scalar value: a code point up to `10FFFF` outside the surrogates. -/
def IsScalar (c : Nat) : Prop := c < 0xD800 ∨ 0xE000 ≤ c ∧ c ≤ 0x10FFFF

instance : DecidablePred IsScalar := fun _ => inferInstanceAs (Decidable (_ ∨ _))

/-- A code point in the surrogate range `D800`–`DFFF`. -/
def isSurrogatePoint (c : Nat) : Bool := 0xD800 ≤ c && c ≤ 0xDFFF

/-- The code point `r` in place of a surrogate code point; any other stays. -/
def scrubPoint (r c : Nat) : Nat := if isSurrogatePoint c then r else c

/-- A text without lone surrogates: every code point it reads as is a scalar value. -/
def WellFormed (t : Text) : Prop := ∀ c ∈ t.codePoints, IsScalar c

instance (t : Text) : Decidable t.WellFormed :=
  inferInstanceAs (Decidable (∀ c ∈ t.codePoints, IsScalar c))

/-! ## Units as numbers -/

theorem isHigh_iff (u : UInt16) : isHigh u = true ↔ 0xD800 ≤ u.toNat ∧ u.toNat ≤ 0xDBFF := by
  simp [isHigh, UInt16.le_iff_toNat_le]

theorem isLow_iff (u : UInt16) : isLow u = true ↔ 0xDC00 ≤ u.toNat ∧ u.toNat ≤ 0xDFFF := by
  simp [isLow, UInt16.le_iff_toNat_le]

theorem isSurrogate_eq (u : UInt16) : isSurrogate u = isSurrogatePoint u.toNat := by
  simp [isSurrogate, isSurrogatePoint, UInt16.le_iff_toNat_le]

theorem isSurrogatePoint_iff (c : Nat) : isSurrogatePoint c = true ↔ 0xD800 ≤ c ∧ c ≤ 0xDFFF := by
  simp [isSurrogatePoint]

/-- A unit that is no surrogate is no high surrogate either. -/
theorem isHigh_eq_false_of_isSurrogate {u : UInt16} (hu : isSurrogate u = false) :
    isHigh u = false := by
  rw [isSurrogate_eq] at hu
  have hNot : ¬ (0xD800 ≤ u.toNat ∧ u.toNat ≤ 0xDFFF) := by
    rw [← isSurrogatePoint_iff]; simp [hu]
  cases hHigh : isHigh u
  · rfl
  · rw [isHigh_iff] at hHigh; omega

theorem pairValue_bounds {h l : UInt16} (hh : isHigh h = true) (hl : isLow l = true) :
    0x10000 ≤ pairValue h l ∧ pairValue h l ≤ 0x10FFFF := by
  rw [isHigh_iff] at hh
  rw [isLow_iff] at hl
  unfold pairValue
  omega

/-- A surrogate pair is written back as itself. -/
theorem unitsOf_pairValue {h l : UInt16} (hh : isHigh h = true) (hl : isLow l = true) :
    unitsOf (pairValue h l) = [h, l] := by
  rw [isHigh_iff] at hh
  rw [isLow_iff] at hl
  have hBig : ¬ pairValue h l < 0x10000 := by unfold pairValue; omega
  have hHigh : (0xD800 + (pairValue h l - 0x10000) / 0x400) % 65536 = h.toNat := by
    unfold pairValue; omega
  have hLow : (0xDC00 + (pairValue h l - 0x10000) % 0x400) % 65536 = l.toNat := by
    unfold pairValue; omega
  simp only [unitsOf, hBig, if_false, List.cons.injEq, and_true]
  constructor
  · rw [← UInt16.toNat_inj]; simpa using hHigh
  · rw [← UInt16.toNat_inj]; simpa using hLow

/-- A single unit is written back as itself. -/
theorem unitsOf_toNat (u : UInt16) : unitsOf u.toNat = [u] := by
  have hLt : u.toNat < 0x10000 := UInt16.toNat_lt_size u
  simp [unitsOf, hLt]

/-! ## Reading units by code point -/

@[simp] theorem codePointsOf_pair {h l : UInt16} (hh : isHigh h = true) (hl : isLow l = true)
    (rest : List UInt16) :
    codePointsOf (h :: l :: rest) = pairValue h l :: codePointsOf rest := by
  simp [codePointsOf, hh, hl]

/-- A unit that cannot start a pair is a code point of its own. -/
theorem codePointsOf_cons_of_not_high {u : UInt16} (hu : isHigh u = false)
    (rest : List UInt16) : codePointsOf (u :: rest) = u.toNat :: codePointsOf rest := by
  cases rest with
  | nil => rfl
  | cons l rest => simp [codePointsOf, hu]

/-- Units without a high surrogate are each a code point of their own. -/
theorem codePointsOf_eq_map {us : List UInt16} (h : ∀ u ∈ us, isHigh u = false) :
    codePointsOf us = us.map UInt16.toNat := by
  induction us with
  | nil => rfl
  | cons u us ih =>
    rw [codePointsOf_cons_of_not_high (h u (by simp)), List.map_cons,
      ih fun u' hu' => h u' (by simp [hu'])]

/-- Every code point read from units is at most `10FFFF`. -/
theorem codePointsOf_le (us : List UInt16) : ∀ c ∈ codePointsOf us, c ≤ 0x10FFFF := by
  fun_induction codePointsOf us with
  | case1 => simp
  | case2 u =>
    have hLt : u.toNat < 0x10000 := UInt16.toNat_lt_size u
    simp only [List.mem_singleton, forall_eq]
    omega
  | case3 h l rest hPair ih =>
    simp only [Bool.and_eq_true] at hPair
    have hBound := pairValue_bounds hPair.1 hPair.2
    intro c hc
    rcases List.mem_cons.mp hc with hEq | hc
    · rw [hEq]; exact hBound.2
    · exact ih c hc
  | case4 h l rest _ ih =>
    have hLt : h.toNat < 0x10000 := UInt16.toNat_lt_size h
    intro c hc
    rcases List.mem_cons.mp hc with hEq | hc
    · omega
    · exact ih c hc

/-- **Units round trip**: writing back the code points of units gives the units, lone
surrogates included. -/
theorem flatMap_unitsOf_codePointsOf (us : List UInt16) :
    (codePointsOf us).flatMap unitsOf = us := by
  fun_induction codePointsOf us with
  | case1 => rfl
  | case2 u => simp [unitsOf_toNat]
  | case3 h l rest hPair ih =>
    simp only [Bool.and_eq_true] at hPair
    simp [unitsOf_pairValue hPair.1 hPair.2, ih]
  | case4 h l rest _ ih =>
    rw [List.flatMap_cons, unitsOf_toNat, ih]
    rfl

theorem ofCodePoints_codePoints (t : Text) : ofCodePoints t.codePoints = t := by
  cases t with
  | mk us => simp [ofCodePoints, codePoints, flatMap_unitsOf_codePointsOf]

theorem append_assoc (a b c : Text) : a ++ b ++ c = a ++ (b ++ c) := by
  cases a; cases b; cases c
  rw [Text.mk.injEq, units_append, units_append, units_append, units_append, List.append_assoc]

/-- Writing two strings one after the other writes their texts one after the other. -/
theorem ofString_append (a b : String) : ofString (a ++ b) = ofString a ++ ofString b := by
  simp only [ofString, ofCodePoints, String.toList_append, List.map_append, List.flatMap_append]
  rfl

/-- Code points below `10000` are written as one unit each. -/
theorem flatMap_unitsOf_of_lt {cs : List Nat} (h : ∀ c ∈ cs, c < 0x10000) :
    cs.flatMap unitsOf = cs.map Nat.toUInt16 := by
  induction cs with
  | nil => rfl
  | cons c cs ih =>
    rw [List.flatMap_cons, List.map_cons, ih fun c' hc' => h c' (by simp [hc'])]
    simp [unitsOf, h c (by simp)]

/-- The units of a scalar value below `10000`: the value itself, which starts no pair. -/
private theorem unitsOf_of_lt {c : Nat} (hc : IsScalar c) (hLt : c < 0x10000) :
    unitsOf c = [c.toUInt16] ∧ isHigh c.toUInt16 = false := by
  refine ⟨by simp [unitsOf, hLt], ?_⟩
  cases hHigh : isHigh c.toUInt16
  · rfl
  · rw [isHigh_iff] at hHigh
    unfold IsScalar at hc
    simp only [Nat.toUInt16_eq, UInt16.toNat_ofNat', Nat.reducePow] at hHigh
    omega

/-- The units of a scalar value from `10000` on: a high and a low surrogate that pair back to
the value. -/
private theorem unitsOf_of_ge {c : Nat} (hc : IsScalar c) (hGe : ¬ c < 0x10000) :
    ∃ h l, unitsOf c = [h, l] ∧ isHigh h = true ∧ isLow l = true ∧ pairValue h l = c := by
  unfold IsScalar at hc
  refine ⟨(0xD800 + (c - 0x10000) / 0x400).toUInt16, (0xDC00 + (c - 0x10000) % 0x400).toUInt16,
    by simp [unitsOf, hGe], ?_, ?_, ?_⟩
  · rw [isHigh_iff]
    simp only [Nat.toUInt16_eq, UInt16.toNat_ofNat', Nat.reducePow]
    omega
  · rw [isLow_iff]
    simp only [Nat.toUInt16_eq, UInt16.toNat_ofNat', Nat.reducePow]
    omega
  · unfold pairValue
    rw [Nat.toUInt16_eq, Nat.toUInt16_eq, UInt16.toNat_ofNat', UInt16.toNat_ofNat']
    omega

/-- **Scalar round trip**: the units of scalar values read back as those values. -/
theorem codePointsOf_flatMap_unitsOf (cs : List Nat) (hcs : ∀ c ∈ cs, IsScalar c) :
    codePointsOf (cs.flatMap unitsOf) = cs := by
  induction cs with
  | nil => rfl
  | cons c cs ih =>
    have hc : IsScalar c := hcs c (by simp)
    have hRest : codePointsOf (cs.flatMap unitsOf) = cs := ih fun c' hc' => hcs c' (by simp [hc'])
    rw [List.flatMap_cons]
    by_cases hLt : c < 0x10000
    · obtain ⟨hUnits, hNotHigh⟩ := unitsOf_of_lt hc hLt
      rw [hUnits, List.singleton_append, codePointsOf_cons_of_not_high hNotHigh, hRest]
      simp only [Nat.toUInt16_eq, UInt16.toNat_ofNat', Nat.reducePow, List.cons.injEq, and_true]
      omega
    · obtain ⟨h, l, hUnits, hh, hl, hValue⟩ := unitsOf_of_ge hc hLt
      rw [hUnits, List.cons_append, List.cons_append, List.nil_append, codePointsOf_pair hh hl,
        hRest, hValue]

theorem codePoints_ofCodePoints (cs : List Nat) (hcs : ∀ c ∈ cs, IsScalar c) :
    (ofCodePoints cs).codePoints = cs :=
  codePointsOf_flatMap_unitsOf cs hcs

/-- Text written from scalar values has no lone surrogate. -/
theorem wellFormed_ofCodePoints (cs : List Nat) (hcs : ∀ c ∈ cs, IsScalar c) :
    (ofCodePoints cs).WellFormed := by
  unfold WellFormed
  rw [codePoints_ofCodePoints cs hcs]
  exact hcs

/-! ## Scrubbing and counting lone surrogates -/

/-- **Scrubbing by code point**: scrubbing replaces exactly the code points in the surrogate
range, and since the replacement starts no pair, every other unit keeps its pairing. -/
theorem codePointsOf_scrubUnits {r : UInt16} (hr : isSurrogate r = false) (us : List UInt16) :
    codePointsOf (scrubUnits r us) = (codePointsOf us).map (scrubPoint r.toNat) := by
  fun_induction scrubUnits r us with
  | case1 => rfl
  | case2 u =>
    by_cases hu : isSurrogate u = true
    · simp [codePointsOf, scrubPoint, hu, ← isSurrogate_eq]
    · simp [codePointsOf, scrubPoint, hu, ← isSurrogate_eq]
  | case3 h l rest hPair ih =>
    simp only [Bool.and_eq_true] at hPair
    have hBound := pairValue_bounds hPair.1 hPair.2
    have hKept : scrubPoint r.toNat (pairValue h l) = pairValue h l := by
      simp only [scrubPoint, isSurrogatePoint, Bool.and_eq_true, decide_eq_true_eq]
      rw [if_neg (by omega)]
    rw [codePointsOf_pair hPair.1 hPair.2, codePointsOf_pair hPair.1 hPair.2, ih,
      List.map_cons, hKept]
  | case4 h l rest hPair ih =>
    -- the head is replaced or kept, and either way it starts no pair
    have hHead : isHigh (if isSurrogate h then r else h) = false := by
      split
      · exact isHigh_eq_false_of_isSurrogate hr
      · next hh => exact isHigh_eq_false_of_isSurrogate (by simpa using hh)
    have hSplit : codePointsOf (h :: l :: rest) = h.toNat :: codePointsOf (l :: rest) := by
      simp [codePointsOf, hPair]
    rw [codePointsOf_cons_of_not_high hHead, ih, hSplit, List.map_cons]
    by_cases hh : isSurrogate h = true
    · simp [scrubPoint, hh, ← isSurrogate_eq]
    · simp [scrubPoint, hh, ← isSurrogate_eq]

theorem codePoints_scrub {r : UInt16} (hr : isSurrogate r = false) (t : Text) :
    (t.scrub r).codePoints = t.codePoints.map (scrubPoint r.toNat) :=
  codePointsOf_scrubUnits hr t.units

/-- Counting lone surrogates counts the code points in the surrogate range. -/
theorem loneCountOf_eq_countP (us : List UInt16) :
    loneCountOf us = (codePointsOf us).countP isSurrogatePoint := by
  fun_induction loneCountOf us with
  | case1 => rfl
  | case2 u hu => simp [codePointsOf, ← isSurrogate_eq, hu]
  | case3 u hu => simp [codePointsOf, ← isSurrogate_eq, hu]
  | case4 h l rest hPair ih =>
    simp only [Bool.and_eq_true] at hPair
    have hBound := pairValue_bounds hPair.1 hPair.2
    have hNot : isSurrogatePoint (pairValue h l) = false := by
      simp only [isSurrogatePoint, Bool.and_eq_false_iff, decide_eq_false_iff_not]
      omega
    rw [codePointsOf_pair hPair.1 hPair.2, List.countP_cons, ih, hNot]
    rfl
  | case5 h l rest hPair ih =>
    have hSplit : codePointsOf (h :: l :: rest) = h.toNat :: codePointsOf (l :: rest) := by
      simp [codePointsOf, hPair]
    rw [hSplit, List.countP_cons, ih, ← isSurrogate_eq]
    by_cases hh : isSurrogate h = true
    · simp [hh]; omega
    · simp [hh]

theorem loneCount_eq_countP (t : Text) : t.loneCount = t.codePoints.countP isSurrogatePoint :=
  loneCountOf_eq_countP t.units

/-- A code point that is read from a text and is no surrogate is a scalar value. -/
theorem isScalar_of_mem_codePoints {t : Text} {c : Nat} (hc : c ∈ t.codePoints)
    (hSurrogate : isSurrogatePoint c = false) : IsScalar c := by
  have hLe := codePointsOf_le t.units c hc
  simp only [isSurrogatePoint, Bool.and_eq_false_iff, decide_eq_false_iff_not] at hSurrogate
  unfold IsScalar
  omega

/-- A scrubbed text has no lone surrogate. -/
theorem wellFormed_scrub {r : UInt16} (hr : isSurrogate r = false) (t : Text) :
    (t.scrub r).WellFormed := by
  intro c hc
  rw [codePoints_scrub hr, List.mem_map] at hc
  obtain ⟨c', hc', rfl⟩ := hc
  unfold scrubPoint
  split
  · have hLt : r.toNat < 0x10000 := UInt16.toNat_lt_size r
    have hr' : isSurrogatePoint r.toNat = false := by rw [← isSurrogate_eq]; exact hr
    simp only [isSurrogatePoint, Bool.and_eq_false_iff, decide_eq_false_iff_not] at hr'
    unfold IsScalar
    omega
  · next hs => exact isScalar_of_mem_codePoints hc' (by simpa using hs)

/-- **Scrubbing keeps exactly the well-formed texts**: a text is left as it is by scrubbing
exactly when it has no lone surrogate. -/
theorem scrub_eq_self_iff {r : UInt16} (hr : isSurrogate r = false) (t : Text) :
    t.scrub r = t ↔ t.WellFormed := by
  constructor
  · intro hEq
    rw [← hEq]
    exact wellFormed_scrub hr t
  · intro hWf
    have hKept : t.codePoints.map (scrubPoint r.toNat) = t.codePoints := by
      rw [List.map_congr_left (g := id), List.map_id]
      intro c hc
      have hScalar := hWf c hc
      unfold IsScalar at hScalar
      simp only [scrubPoint, isSurrogatePoint, Bool.and_eq_true, decide_eq_true_eq, id]
      rw [if_neg (by omega)]
    calc t.scrub r = ofCodePoints (t.scrub r).codePoints := (ofCodePoints_codePoints _).symm
      _ = ofCodePoints t.codePoints := by rw [codePoints_scrub hr, hKept]
      _ = t := ofCodePoints_codePoints t

/-- A unit outside the surrogates occurs among the code points as often as among the units. -/
theorem count_codePointsOf {v : UInt16} (hv : isSurrogate v = false) (us : List UInt16) :
    (codePointsOf us).count v.toNat = us.count v := by
  have hvPoint : isSurrogatePoint v.toNat = false := by rw [← isSurrogate_eq]; exact hv
  have hvLt : v.toNat < 0x10000 := UInt16.toNat_lt_size v
  simp only [isSurrogatePoint, Bool.and_eq_false_iff, decide_eq_false_iff_not] at hvPoint
  fun_induction codePointsOf us with
  | case1 => rfl
  | case2 u =>
    by_cases huv : u = v
    · simp [huv]
    · have hNe : u.toNat ≠ v.toNat := fun hEq => huv (UInt16.toNat_inj.mp hEq)
      simp [huv, hNe]
  | case3 h l rest hPair ih =>
    simp only [Bool.and_eq_true] at hPair
    have hBound := pairValue_bounds hPair.1 hPair.2
    have hh := (isHigh_iff h).mp hPair.1
    have hl := (isLow_iff l).mp hPair.2
    have hNe : pairValue h l ≠ v.toNat := by omega
    have hhv : h ≠ v := fun hEq => by rw [hEq] at hh; omega
    have hlv : l ≠ v := fun hEq => by rw [hEq] at hl; omega
    simp [ih, hNe, hhv, hlv]
  | case4 h l rest _ ih =>
    by_cases hhv : h = v
    · simp [List.count_cons, ih, hhv]
    · have hNe : h.toNat ≠ v.toNat := fun hEq => hhv (UInt16.toNat_inj.mp hEq)
      simp [List.count_cons, ih, hhv, hNe]

end Transcode.Text
