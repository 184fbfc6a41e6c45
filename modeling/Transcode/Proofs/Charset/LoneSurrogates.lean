import Transcode.Charset.Basic
import Transcode.Proofs.Text.CodePoints

/-!
# Lone surrogates: the pattern and the reading by code point

UTF-8 encoding finds lone surrogates with the regular expression `LONE_SURROGATE`: a high
surrogate not followed by a low one, or a low surrogate not preceded by a high one, both judged
on the original units (`Utf8.LoneSurrogate.replaceFrom`). Reading a text by code point pairs a
high surrogate with the low one right after it, from the left, and yields every other unit on
its own (`Text.codePointsOf`). The two agree: the pattern matches exactly the units that the
reading yields on their own as surrogate code points.

They agree because a pair is a high surrogate followed by a low one and no unit is both: a high
surrogate never ends a pair and a low one never starts one, so the reading from the left never
has a choice to make, and whether a unit is paired depends only on its two neighbours, which is
what the lookarounds read. Along the scan the unit before the current one never pairs with it
(`LoneSurrogate.Unpaired`), so the lookbehind reads as it does at the start of a text.

## Main results

* `Text.indexedCodePointsFrom`: the reading by code point, with the position of each code point.
* `Utf8.LoneSurrogate.replaceFrom_eq`: the pattern replaces what scrubbing replaces, at the
  positions of the surrogate code points of the reading.
* `Utf8.encode_eq_scrub`, `Utf8.encodeCounting_snd`: the encoder through the reading.
* `lone_surrogates_by_pattern`: the pattern's matches are the lone surrogates of the reading,
  so UTF-8 reports the number of surrogate code points, no more than a single-byte charset.
-/

namespace Transcode

namespace Text

/-- Reading by code point as `codePointsOf` does, each code point with the position of its first
unit; the first unit of `us` is at position `i`. -/
def indexedCodePointsFrom (i : Nat) : List UInt16 → List (Nat × Nat)
  | [] => []
  | [u] => [(i, u.toNat)]
  | h :: l :: rest =>
    if isHigh h && isLow l then (i, pairValue h l) :: indexedCodePointsFrom (i + 2) rest
    else (i, h.toNat) :: indexedCodePointsFrom (i + 1) (l :: rest)

/-- The positions of the units that the reading by code point yields on their own as surrogate
code points. -/
def lonePositionsFrom (i : Nat) (us : List UInt16) : List Nat :=
  ((indexedCodePointsFrom i us).filter fun p => isSurrogatePoint p.2).map Prod.fst

theorem map_snd_indexedCodePointsFrom (i : Nat) (us : List UInt16) :
    (indexedCodePointsFrom i us).map Prod.snd = codePointsOf us := by
  fun_induction indexedCodePointsFrom i us with
  | case1 => rfl
  | case2 => rfl
  | case3 i h l rest hPair ih => simp [codePointsOf, hPair, ih]
  | case4 i h l rest hPair ih => simp [codePointsOf, hPair, ih]

theorem length_lonePositionsFrom (i : Nat) (us : List UInt16) :
    (lonePositionsFrom i us).length = (codePointsOf us).countP isSurrogatePoint := by
  rw [lonePositionsFrom, List.length_map, ← List.countP_eq_length_filter,
    ← map_snd_indexedCodePointsFrom i us, List.countP_map]
  rfl

/-- No unit is both a high and a low surrogate. -/
theorem isLow_eq_false_of_isHigh {u : UInt16} (h : isHigh u = true) : isLow u = false := by
  rw [isHigh_iff] at h
  rw [← Bool.not_eq_true, isLow_iff]
  omega

theorem isSurrogate_eq_or (u : UInt16) : isSurrogate u = (isHigh u || isLow u) := by
  rw [Bool.eq_iff_iff, Bool.or_eq_true, isSurrogate_eq, isSurrogatePoint_iff, isHigh_iff,
    isLow_iff]
  omega

end Text

namespace Utf8.LoneSurrogate

open Text (isHigh isLow isSurrogate)

/-- The unit before the scan's position pairs with no unit at it: it is no high surrogate, or the
unit at the position is no low one. -/
def Unpaired (before : Option UInt16) (us : List UInt16) : Prop :=
  ∀ v u, before = some v → us.head? = some u → ¬ (isHigh v = true ∧ isLow u = true)

/-- Before a unit it does not pair with, the lookbehind reads as at the start of a text. -/
theorem matchAt_of_unpaired {before : Option UInt16} {u : UInt16}
    (h : ∀ v, before = some v → ¬ (isHigh v = true ∧ isLow u = true)) (after : Option UInt16) :
    matchAt before u after = matchAt none u after := by
  cases before with
  | none => rfl
  | some v =>
    have hv := h v rfl
    unfold matchAt
    cases hu : isLow u
    · simp
    · have hNotHigh : isHigh v = false := by simpa [hu] using hv
      simp [hNotHigh]

/-- A unit that pairs with nothing on either side matches exactly when it is a surrogate. -/
theorem matchAt_alone {u : UInt16} {after : Option UInt16}
    (h : ∀ l, after = some l → ¬ (isHigh u = true ∧ isLow l = true)) :
    matchAt none u after = isSurrogate u := by
  rw [Text.isSurrogate_eq_or]
  unfold matchAt
  cases after with
  | none => simp
  | some l =>
    cases hu : isHigh u
    · simp
    · have hl : isLow l = false := by simpa [hu] using h l rfl
      simp [hl, Text.isLow_eq_false_of_isHigh hu]

/-- The high unit of a pair does not match: a low one follows it. -/
theorem matchAt_pair_high {h l : UInt16} (hh : isHigh h = true) (hl : isLow l = true)
    (before : Option UInt16) : matchAt before h (some l) = false := by
  simp [matchAt, hl, Text.isLow_eq_false_of_isHigh hh]

/-- The low unit of a pair does not match: a high one precedes it. -/
theorem matchAt_pair_low {h l : UInt16} (hh : isHigh h = true) (hl : isLow l = true)
    (after : Option UInt16) : matchAt (some h) l after = false := by
  have hNotHigh : isHigh l = false := by
    rw [← Bool.not_eq_true]
    intro hHigh
    rw [Text.isLow_eq_false_of_isHigh hHigh] at hl
    cases hl
  simp [matchAt, hh, hNotHigh]

/-- **The pattern replaces what scrubbing replaces**, and it matches at the positions of the
surrogate code points of the reading by code point. The induction follows the reading: a pair,
whose units do not match and whose low unit pairs with nothing after it, or a unit on its own,
which matches exactly when it is a surrogate. -/
theorem replaceFrom_eq (r : UInt16) (us : List UInt16) :
    ∀ (i : Nat) (before : Option UInt16), Unpaired before us →
      replaceFrom r i before us = (Text.scrubUnits r us, Text.lonePositionsFrom i us) := by
  fun_induction Text.scrubUnits r us with
  | case1 => intro i before _; rfl
  | case2 u =>
    intro i before hUnpaired
    have hMatch : matchAt before u none = isSurrogate u := by
      rw [matchAt_of_unpaired (fun v hv => hUnpaired v u hv rfl)]
      exact matchAt_alone (by simp)
    have hPoint : Text.isSurrogatePoint u.toNat = isSurrogate u := (Text.isSurrogate_eq u).symm
    simp only [replaceFrom, List.head?_nil, hMatch, Text.lonePositionsFrom,
      Text.indexedCodePointsFrom, List.filter_cons, List.filter_nil, hPoint]
    cases isSurrogate u <;> rfl
  | case3 h l rest hPair ih =>
    intro i before hUnpaired
    simp only [Bool.and_eq_true] at hPair
    -- the low unit of the pair is no high surrogate, so it pairs with nothing after it
    have hRest : Unpaired (some l) rest := by
      intro v u hv _ hHigh
      cases hv
      exact absurd (Text.isLow_eq_false_of_isHigh hHigh.1) (by simp [hPair.2])
    have hPairValue : Text.isSurrogatePoint (Text.pairValue h l) = false := by
      have hBound := Text.pairValue_bounds hPair.1 hPair.2
      simp only [Text.isSurrogatePoint, Bool.and_eq_false_iff, decide_eq_false_iff_not]
      omega
    simp only [replaceFrom, List.head?_cons, matchAt_pair_high hPair.1 hPair.2,
      matchAt_pair_low hPair.1 hPair.2, ih (i + 2) (some l) hRest, Bool.false_eq_true, if_false]
    simp [Text.lonePositionsFrom, Text.indexedCodePointsFrom, hPair.1, hPair.2, hPairValue]
  | case4 h l rest hPair ih =>
    intro i before hUnpaired
    have hNotPair : ¬ (isHigh h = true ∧ isLow l = true) := by simpa using hPair
    have hMatch : matchAt before h (some l) = isSurrogate h := by
      rw [matchAt_of_unpaired (fun v hv => hUnpaired v h hv rfl)]
      exact matchAt_alone (by simpa using hNotPair)
    have hRest : Unpaired (some h) (l :: rest) := by
      intro v u hv hu
      cases hv
      cases hu
      exact hNotPair
    have hSplit : Text.lonePositionsFrom i (h :: l :: rest) =
        (if isSurrogate h then [i] else []) ++ Text.lonePositionsFrom (i + 1) (l :: rest) := by
      simp only [Text.lonePositionsFrom, Text.indexedCodePointsFrom, hPair, Bool.false_eq_true,
        if_false, List.filter_cons, ← Text.isSurrogate_eq]
      cases isSurrogate h <;> rfl
    rw [replaceFrom, ih (i + 1) (some h) hRest, hSplit]
    simp only [List.head?_cons, hMatch]
    cases isSurrogate h <;> rfl

theorem unpaired_start (us : List UInt16) : Unpaired none us := by
  intro v u hv
  cases hv

end Utf8.LoneSurrogate

namespace Utf8

/-- The encoder writes the scrubbed text: the platform's encoder finds no lone surrogate left. -/
theorem encode_eq_scrub (t : Text) : encode t = ((t.scrub 0x3F).codePoints).flatMap encodePoint := by
  have hWellFormed : (t.scrub 0x3F).scrub 0xFFFD = t.scrub 0x3F :=
    (Text.scrub_eq_self_iff (by decide) _).mpr (Text.wellFormed_scrub (by decide) t)
  unfold encode encodeCounting
  rw [LoneSurrogate.replaceFrom_eq 0x3F t.units 0 none (LoneSurrogate.unpaired_start _)]
  exact congrArg (fun s : Text => s.codePoints.flatMap encodePoint) hWellFormed

/-- The encoder counts the surrogate code points of the reading by code point. -/
theorem encodeCounting_snd (t : Text) :
    (encodeCounting t).2 = t.codePoints.countP Text.isSurrogatePoint := by
  unfold encodeCounting
  rw [LoneSurrogate.replaceFrom_eq 0x3F t.units 0 none (LoneSurrogate.unpaired_start _)]
  exact Text.length_lonePositionsFrom 0 t.units

end Utf8

/-- **The pattern `LONE_SURROGATE` finds exactly the lone surrogates of the reading by code
point.** For every text and every replacement unit, the global replacement matches at the
positions of the code points that the reading yields in the surrogate range (the reading's
code points are those of `codePointsOf`, and a pair reads as one value above them), and writes
what scrubbing writes. So the UTF-8 report counts the surrogate code points of a text, which is
at most what ISO-8859-1 and US-ASCII report: both replace every code point above their limit. -/
theorem lone_surrogates_by_pattern :
    (∀ (r : UInt16) (us : List UInt16), Utf8.LoneSurrogate.replaceFrom r 0 none us =
      (Text.scrubUnits r us,
        ((Text.indexedCodePointsFrom 0 us).filter fun p => Text.isSurrogatePoint p.2).map Prod.fst)) ∧
    (∀ us : List UInt16, (Text.indexedCodePointsFrom 0 us).map Prod.snd = Text.codePointsOf us) ∧
    (∀ t : Text, (CharsetRef.encodeWithReport (.builtin .utf8) t).2 =
      t.codePoints.countP Text.isSurrogatePoint) ∧
    (∀ t : Text, (CharsetRef.encodeWithReport (.builtin .utf8) t).2 ≤
      (CharsetRef.encodeWithReport (.builtin .latin1) t).2 ∧
      (CharsetRef.encodeWithReport (.builtin .utf8) t).2 ≤
        (CharsetRef.encodeWithReport (.builtin .ascii) t).2) := by
  -- a surrogate code point lies above both single-byte limits
  have hAbove : ∀ (limit : Nat), limit < 0xD800 → ∀ t : Text,
      t.codePoints.countP Text.isSurrogatePoint ≤ t.codePoints.countP (limit < ·) := by
    intro limit hLimit t
    refine List.countP_mono_left fun c _ hc => ?_
    rw [Text.isSurrogatePoint_iff] at hc
    simpa using (by omega : limit < c)
  have hUtf8 : ∀ t : Text, (CharsetRef.encodeWithReport (.builtin .utf8) t).2 =
      t.codePoints.countP Text.isSurrogatePoint := Utf8.encodeCounting_snd
  exact ⟨fun r us => Utf8.LoneSurrogate.replaceFrom_eq r us 0 none
    (Utf8.LoneSurrogate.unpaired_start us), fun us => Text.map_snd_indexedCodePointsFrom 0 us,
    hUtf8, fun t => ⟨by rw [hUtf8]; exact hAbove 0xFF (by decide) t,
      by rw [hUtf8]; exact hAbove 0x7F (by decide) t⟩⟩

/-- High, high, low: the first high surrogate is lone, the second pairs with the low one. -/
example : (Utf8.LoneSurrogate.replaceFrom 0x3F 0 none [0xD800, 0xD800, 0xDC00]) =
    ([0x3F, 0xD800, 0xDC00], [0]) := by decide

/-- Low, low: both are lone. -/
example : (Utf8.LoneSurrogate.replaceFrom 0x3F 0 none [0xDC00, 0xDC00]) =
    ([0x3F, 0x3F], [0, 1]) := by decide

end Transcode
