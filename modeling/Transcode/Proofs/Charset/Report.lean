import Mathlib.Data.List.Count
import Transcode.Proofs.Charset.SingleByte

/-!
# Counting replaced characters

`CharsetRef.encodeWithReport` returns the bytes of a text with the number of characters it wrote
as `?`. The two library kinds count in different places: a single-byte charset counts the code
points above its limit as it writes them, and UTF-8 counts the lone surrogates it scrubs before
writing anything. This module ties both counts to the bytes written.

The view that makes the two agree is the ASCII part of the output. Every byte below `80` comes
from a code point of its own: a single-byte charset writes one byte per code point, and UTF-8
writes a code point of `80` or more with bytes of `80` or more only. So the bytes below `80` are,
in order, the code points below `80` with a `?` in place of each replaced one
(`Charset.asciiView`), and the count is the number of `?` the output has beyond those of the
text.

## Main results

* `Charset.ascii_bytes_encode`: the bytes below `80` of an encoding.
* `Charset.replaced_eq_countP`: the count is the number of replaced code points.
* `replacement_report`: the report is exact for every library charset.
-/

namespace Transcode

namespace Charset

/-- Whether the charset writes code point `p` of a text as `?` in place of it: a single-byte
charset each code point above its limit, UTF-8 each lone surrogate (the code points a text reads
as in the surrogate range). -/
def replaces : Charset → Nat → Bool
  | .latin1, p => 0xFF < p
  | .ascii, p => 0x7F < p
  | .utf8, p => Text.isSurrogatePoint p

/-- What the bytes below `80` of an encoding show of one code point: `?` for a replaced one,
the code point itself below `80`, and nothing for any other. -/
def asciiView (c : Charset) (p : Nat) : Option Nat :=
  if c.replaces p then some 0x3F else if p < 0x80 then some p else none

/-- No charset replaces `?` itself. -/
theorem replaces_question (c : Charset) : c.replaces 0x3F = false := by
  cases c <;> rfl

end Charset

/-- The bytes below `80` of a concatenation, when each piece shows one code point's view. -/
private theorem ascii_flatMap {cs : List Nat} {g : Nat → List UInt8} {v : Nat → Option Nat}
    (h : ∀ p ∈ cs, ((g p).filter (· < 0x80)).map UInt8.toNat = (v p).toList) :
    ((cs.flatMap g).filter (· < 0x80)).map UInt8.toNat = cs.filterMap v := by
  induction cs with
  | nil => rfl
  | cons p cs ih =>
    rw [List.flatMap_cons, List.filter_append, List.map_append, h p (by simp),
      ih fun p' hp' => h p' (by simp [hp']), List.filterMap_cons]
    cases v p <;> rfl

/-- A code point from `80` to `10FFFF` is written with bytes of `80` or more only. -/
theorem Utf8.filter_encodePoint {p : Nat} (h1 : 0x80 ≤ p) (h2 : p ≤ 0x10FFFF) :
    (Utf8.encodePoint p).filter (· < 0x80) = [] := by
  have hHigh : ∀ n : Nat, 0x80 ≤ n → n < 256 → decide (n.toUInt8 < 0x80) = false := by
    intro n hn hLt
    simp only [decide_eq_false_iff_not, UInt8.lt_iff_toNat_lt, UInt8.reduceToNat,
      Nat.toUInt8_eq, UInt8.toNat_ofNat']
    omega
  by_cases h2' : p < 0x800
  · rw [Utf8.encodePoint_two h1 h2']
    simp only [List.filter_cons, hHigh _ (by omega : 0x80 ≤ 0xC0 + p / 64) (by omega),
      hHigh _ (by omega : 0x80 ≤ 0x80 + p % 64) (by omega)]
    rfl
  by_cases h3 : p < 0x10000
  · rw [Utf8.encodePoint_three (by omega) h3]
    simp only [List.filter_cons, hHigh _ (by omega : 0x80 ≤ 0xE0 + p / 4096) (by omega),
      hHigh _ (by omega : 0x80 ≤ 0x80 + p / 64 % 64) (by omega),
      hHigh _ (by omega : 0x80 ≤ 0x80 + p % 64) (by omega)]
    rfl
  · rw [Utf8.encodePoint_four (by omega)]
    simp only [List.filter_cons, hHigh _ (by omega : 0x80 ≤ 0xF0 + p / 262144) (by omega),
      hHigh _ (by omega : 0x80 ≤ 0x80 + p / 4096 % 64) (by omega),
      hHigh _ (by omega : 0x80 ≤ 0x80 + p / 64 % 64) (by omega),
      hHigh _ (by omega : 0x80 ≤ 0x80 + p % 64) (by omega)]
    rfl

/-- The byte a single-byte charset writes for one code point, seen below `80`. -/
private theorem ascii_singleByte {limit p : Nat} (hLe : limit ≤ 0xFF) :
    (([SingleByte.encodePoint limit p]).filter (· < 0x80)).map UInt8.toNat =
      (if limit < p then some 0x3F else if p < 0x80 then some p else none).toList := by
  have hByte := SingleByte.encodePoint_toNat hLe p
  simp only [List.filter_cons, List.filter_nil, UInt8.lt_iff_toNat_lt, UInt8.reduceToNat, hByte]
  by_cases hp : p ≤ limit
  · have hNot : ¬ limit < p := by omega
    by_cases h80 : p < 0x80
    · simp [hp, hNot, h80, hByte]
    · simp [hp, hNot, h80]
  · have hAbove : limit < p := by omega
    simp [hp, hAbove, hByte]

namespace Charset

/-- **The ASCII part of an encoding**: the bytes below `80` are the code points below `80`, in
order, with a `?` in place of each replaced code point. -/
theorem ascii_bytes_encode (c : Charset) (t : Text) :
    ((c.encode t).filter (· < 0x80)).map UInt8.toNat = t.codePoints.filterMap c.asciiView := by
  cases c with
  | latin1 =>
    show ((t.codePoints.map (SingleByte.encodePoint 0xFF)).filter _).map _ = _
    rw [List.map_eq_flatMap (l := t.codePoints)]
    refine ascii_flatMap fun p _ => ?_
    rw [ascii_singleByte (by decide)]
    simp [asciiView, replaces]
  | ascii =>
    show ((t.codePoints.map (SingleByte.encodePoint 0x7F)).filter _).map _ = _
    rw [List.map_eq_flatMap (l := t.codePoints)]
    refine ascii_flatMap fun p _ => ?_
    rw [ascii_singleByte (by decide)]
    simp [asciiView, replaces]
  | utf8 =>
    -- UTF-8 writes the scrubbed code points: a lone surrogate as `?`, every other one as is
    show ((Utf8.encode t).filter _).map _ = _
    rw [Utf8.encode_eq_scrub, Text.codePoints_scrub (by decide), List.flatMap_map]
    refine ascii_flatMap fun p hp => ?_
    have hLe := Text.codePointsOf_le t.units p hp
    unfold Text.scrubPoint asciiView replaces
    by_cases hs : Text.isSurrogatePoint p = true
    · simp only [hs, if_true]
      rfl
    · simp only [hs, if_false, Bool.false_eq_true]
      by_cases h80 : p < 0x80
      · rw [Utf8.encodePoint_one h80, if_pos h80]
        have hByte : p.toUInt8.toNat = p := by simp; omega
        simp [UInt8.lt_iff_toNat_lt, hByte, h80]
      · rw [Utf8.filter_encodePoint (by omega) hLe, if_neg h80]
        rfl

/-- The count a library charset reports is the number of code points it replaces. -/
theorem replaced_eq_countP (c : Charset) (t : Text) :
    (CharsetRef.encodeWithReport (.builtin c) t).2 = t.codePoints.countP c.replaces := by
  cases c with
  | latin1 => rfl
  | ascii => rfl
  | utf8 => exact Utf8.encodeCounting_snd t

/-- The `?` in the view: one for each replaced code point and one for each `?` of the text. -/
theorem count_filterMap_asciiView (c : Charset) (cs : List Nat) :
    (cs.filterMap c.asciiView).count 0x3F = cs.countP c.replaces + cs.count 0x3F := by
  induction cs with
  | nil => rfl
  | cons p cs ih =>
    rw [List.filterMap_cons, List.countP_cons, List.count_cons]
    by_cases hr : c.replaces p = true
    · have hp : p ≠ 0x3F := fun hEq => by rw [hEq, replaces_question] at hr; cases hr
      have hView : c.asciiView p = some 0x3F := by simp [asciiView, hr]
      simp [hView, ih, hr, hp]
      omega
    · by_cases h80 : p < 0x80
      · have hView : c.asciiView p = some p := by simp [asciiView, hr, h80]
        simp only [hView, List.count_cons, ih]
        simp [hr]
        omega
      · have hp : p ≠ 0x3F := by omega
        have hView : c.asciiView p = none := by simp [asciiView, hr, h80]
        simp [hView, ih, hr, hp]

end Charset

/-- **Replacement accounting is exact.** For every library charset and every text, the report's
bytes are the encoding, which `getBytes` gives too; the bytes below `80` are the code points
below `80` with a `?` at the place of each replaced character; the count is the number of
replaced characters; and so it is the number of `?` in the output beyond those of the text. -/
theorem replacement_report (c : Charset) (t : Text) :
    (CharsetRef.encodeWithReport (.builtin c) t).1 = c.encode t ∧
      getBytes (some t) (some (.given (.builtin c))) = .ok (c.encode t) ∧
      ((c.encode t).filter (· < 0x80)).map UInt8.toNat = t.codePoints.filterMap c.asciiView ∧
      (CharsetRef.encodeWithReport (.builtin c) t).2 = t.codePoints.countP c.replaces ∧
      (CharsetRef.encodeWithReport (.builtin c) t).2 + t.units.count 0x3F =
        (c.encode t).count 0x3F := by
  have hView := Charset.ascii_bytes_encode c t
  have hCount := Charset.replaced_eq_countP c t
  refine ⟨rfl, Utf8.getBytes_of_resolveCharset (c := .builtin c) rfl t, hView, hCount, ?_⟩
  -- count the `?` of the output among its bytes below `80`, which the view describes
  have hUnits : t.units.count 0x3F = t.codePoints.count 0x3F :=
    (Text.count_codePointsOf (v := 0x3F) (by decide) t.units).symm
  have hBytes : (c.encode t).count 0x3F =
      (((c.encode t).filter (· < 0x80)).map UInt8.toNat).count 0x3F := by
    have hMap := List.count_map_of_injective ((c.encode t).filter (· < 0x80)) UInt8.toNat
      (fun a b h => UInt8.toNat_inj.mp h) 0x3F
    rw [List.count_filter (by decide)] at hMap
    exact hMap.symm
  rw [hCount, hUnits, hBytes, hView, Charset.count_filterMap_asciiView]

end Transcode
