import Transcode.Proofs.Charset.Utf8

/-!
# Single-byte charsets

A single-byte charset with limit `L` (`FF` for ISO-8859-1, `7F` for US-ASCII) writes one byte
per code point, reading the text by code point, and one code unit per byte. Its laws are
collected in `SingleByte.Laws`: the shape of both directions, byte by byte and unit by unit,
and the round trip that decoding an encoding replaces each code point above the limit by `?`.

Every byte a single-byte encoder writes is at most `L` (a code point up to the limit, or `?`,
which every limit here admits), so its decoder takes each byte back as the code point it came
from. A surrogate pair is one code point above every limit, so it comes back as one `?`: the
round trip is the identity exactly on texts whose units are all at most `L`.

## Main results

* `SingleByte.decode_encode`: decoding an encoding replaces the code points above the limit.
* `SingleByte.decode_encode_eq_self_iff`: the round trip keeps exactly the texts in range.
* `single_byte_codecs`: both library charsets obey the laws, ISO-8859-1 reads bytes back
  exactly, and US-ASCII reads them back with every byte from `80` on as `?`.
-/

namespace Transcode

namespace Text

/-- The text of the code points of `t`, each one above `limit` replaced by `?`. -/
def replaceAbove (limit : Nat) (t : Text) : Text :=
  ofCodePoints (t.codePoints.map fun c => if c ≤ limit then c else 0x3F)

end Text

namespace SingleByte

/-- The laws of the single-byte charset `c` with limit `limit`. -/
structure Laws (c : Charset) (limit : Nat) : Prop where
  /-- `getBytes` with the charset itself encodes. -/
  getBytes_eq : ∀ t, getBytes (some t) (some (.given (.builtin c))) = .ok (c.encode t)
  /-- One byte per code point. -/
  encode_length : ∀ t, (c.encode t).length = t.codePoints.length
  /-- The `i`-th byte is the `i`-th code point when it is at most the limit, `?` otherwise. -/
  encode_getElem? : ∀ t (i : Nat), ((c.encode t)[i]?).map UInt8.toNat =
    (t.codePoints[i]?).map fun p => if p ≤ limit then p else 0x3F
  /-- One code unit per byte. -/
  decode_length : ∀ bs, (c.decode bs).length = bs.length
  /-- The `i`-th unit is the `i`-th byte when it is at most the limit, `U+FFFD` otherwise. -/
  decode_getElem? : ∀ bs (i : Nat), ((c.decode bs).units[i]?).map UInt16.toNat =
    (bs[i]?).map fun b => if b.toNat ≤ limit then b.toNat else 0xFFFD
  /-- Decoding an encoding replaces each code point above the limit by `?`. -/
  decode_encode : ∀ t, c.decode (c.encode t) = t.replaceAbove limit
  /-- The round trip keeps exactly the texts whose units are all at most the limit. -/
  decode_encode_eq_self_iff : ∀ t, c.decode (c.encode t) = t ↔ ∀ u ∈ t.units, u.toNat ≤ limit

section Limit

variable {limit : Nat}

/-- The byte a code point is written as, as a number: the code point up to the limit, `3F`
above it. -/
theorem encodePoint_toNat (hLe : limit ≤ 0xFF) (c : Nat) :
    (encodePoint limit c).toNat = if c ≤ limit then c else 0x3F := by
  unfold encodePoint
  split
  · simp; omega
  · rfl

/-- Every byte the encoder writes is read back as the number it stands for. -/
theorem decodeByte_encodePoint (hq : 0x3F ≤ limit) (hLe : limit ≤ 0xFF) (c : Nat) :
    decodeByte limit (encodePoint limit c) = (if c ≤ limit then c else 0x3F).toUInt16 := by
  have hByte := encodePoint_toNat hLe c
  unfold decodeByte
  rw [if_pos (by rw [hByte]; split <;> omega), hByte]

theorem encode_length (t : Text) : (encode limit t).length = t.codePoints.length :=
  List.length_map _

theorem encode_getElem? (hLe : limit ≤ 0xFF) (t : Text) (i : Nat) :
    ((encode limit t)[i]?).map UInt8.toNat =
      (t.codePoints[i]?).map fun p => if p ≤ limit then p else 0x3F := by
  unfold encode
  rw [List.getElem?_map, Option.map_map]
  congr 1
  funext p
  exact encodePoint_toNat hLe p

theorem decode_length (bs : List UInt8) : (decode limit bs).length = bs.length :=
  List.length_map _

theorem decode_getElem? (bs : List UInt8) (i : Nat) :
    ((decode limit bs).units[i]?).map UInt16.toNat =
      (bs[i]?).map fun b => if b.toNat ≤ limit then b.toNat else 0xFFFD := by
  unfold decode
  rw [List.getElem?_map, Option.map_map]
  congr 1
  funext b
  simp only [Function.comp, decodeByte]
  split
  · simp
  · rfl

/-- **Decoding an encoding replaces exactly the code points above the limit**, each by one
`?`: a surrogate pair, which is one code point, by a single `?`. -/
theorem decode_encode (hq : 0x3F ≤ limit) (hLe : limit ≤ 0xFF) (t : Text) :
    decode limit (encode limit t) = t.replaceAbove limit := by
  unfold decode encode Text.replaceAbove Text.ofCodePoints
  congr 1
  rw [Text.flatMap_unitsOf_of_lt, List.map_map, List.map_map]
  · exact List.map_congr_left fun c _ => decodeByte_encodePoint hq hLe c
  · intro c hc
    obtain ⟨p, -, rfl⟩ := List.mem_map.mp hc
    split <;> omega

/-- Every unit of a decoded encoding is at most the limit. -/
theorem toNat_le_of_mem_decode_encode (hq : 0x3F ≤ limit) (hLe : limit ≤ 0xFF) {t : Text}
    {u : UInt16} (hu : u ∈ (decode limit (encode limit t)).units) : u.toNat ≤ limit := by
  unfold decode encode at hu
  rw [List.map_map] at hu
  obtain ⟨c, -, rfl⟩ := List.mem_map.mp hu
  rw [Function.comp_apply, decodeByte_encodePoint hq hLe c]
  split <;> simp <;> omega

/-- **The round trip keeps exactly the texts in range**: those whose units are all at most
the limit, which are then each a code point of their own. -/
theorem decode_encode_eq_self_iff (hq : 0x3F ≤ limit) (hLe : limit ≤ 0xFF) (t : Text) :
    decode limit (encode limit t) = t ↔ ∀ u ∈ t.units, u.toNat ≤ limit := by
  constructor
  · intro hEq u hu
    rw [← hEq] at hu
    exact toNat_le_of_mem_decode_encode hq hLe hu
  · intro hIn
    -- no unit in range is a high surrogate, so each unit is a code point of its own
    have hPoints : t.codePoints = t.units.map UInt16.toNat := by
      apply Text.codePointsOf_eq_map
      intro u hu
      have hu' := hIn u hu
      cases hHigh : Text.isHigh u
      · rfl
      · rw [Text.isHigh_iff] at hHigh; omega
    cases t with
    | mk us =>
      unfold decode encode
      rw [hPoints, List.map_map, List.map_map]
      congr 1
      conv => rhs; rw [← List.map_id us]
      apply List.map_congr_left
      intro u hu
      rw [Function.comp_apply, Function.comp_apply, decodeByte_encodePoint hq hLe,
        if_pos (hIn u hu)]
      simp

end Limit

/-- **ISO-8859-1 reads bytes back exactly**: every byte decodes to the code point of its own
value, which encodes to that byte. -/
theorem latin1_encode_decode (bs : List UInt8) :
    encode 0xFF (decode 0xFF bs) = bs := by
  have hUnits : ∀ u ∈ (decode 0xFF bs).units, Text.isHigh u = false := by
    intro u hu
    unfold decode decodeByte at hu
    obtain ⟨b, -, rfl⟩ := List.mem_map.mp hu
    have hb : b.toNat < 256 := UInt8.toNat_lt b
    cases hHigh : Text.isHigh (if b.toNat ≤ 0xFF then b.toNat.toUInt16 else 0xFFFD)
    · rfl
    · rw [Text.isHigh_iff, if_pos (by omega)] at hHigh; simp at hHigh; omega
  unfold encode Text.codePoints
  rw [Text.codePointsOf_eq_map hUnits]
  unfold decode
  rw [List.map_map, List.map_map]
  conv => rhs; rw [← List.map_id bs]
  apply List.map_congr_left
  intro b _
  have hb : b.toNat < 256 := UInt8.toNat_lt b
  have hUnit : (decodeByte 0xFF b).toNat = b.toNat := by
    simp only [decodeByte, if_pos (show b.toNat ≤ 0xFF by omega)]
    simp
  simp only [Function.comp_apply, id, hUnit, encodePoint, if_pos (show b.toNat ≤ 0xFF by omega)]
  simp

/-- **US-ASCII reads bytes back with every byte from `80` on as `?`**: such a byte decodes to
`U+FFFD`, which encodes as `?`. -/
theorem ascii_encode_decode (bs : List UInt8) :
    encode 0x7F (decode 0x7F bs) = bs.map fun b => if b < 0x80 then b else 0x3F := by
  have hUnits : ∀ u ∈ (decode 0x7F bs).units, Text.isHigh u = false := by
    intro u hu
    unfold decode decodeByte at hu
    obtain ⟨b, -, rfl⟩ := List.mem_map.mp hu
    split
    · cases hHigh : Text.isHigh b.toNat.toUInt16
      · rfl
      · rw [Text.isHigh_iff] at hHigh; simp at hHigh; omega
    · rfl
  unfold encode Text.codePoints
  rw [Text.codePointsOf_eq_map hUnits]
  unfold decode
  rw [List.map_map, List.map_map]
  apply List.map_congr_left
  intro b _
  have hb : b.toNat < 256 := UInt8.toNat_lt b
  simp only [Function.comp_apply, decodeByte, encodePoint, UInt8.lt_iff_toNat_lt,
    UInt8.reduceToNat]
  by_cases hLow : b.toNat ≤ 0x7F
  · rw [if_pos hLow, if_pos (by simp; omega), if_pos (by omega), ← UInt8.toNat_inj]
    simp
  · rw [if_neg hLow, if_neg (by decide), if_neg (by omega)]

end SingleByte

/-- The charset encodes and decodes as the single-byte charset with limit `limit`. -/
private theorem laws_of_limit {c : Charset} {limit : Nat} (hq : 0x3F ≤ limit)
    (hLe : limit ≤ 0xFF) (hEncode : ∀ t, c.encode t = SingleByte.encode limit t)
    (hDecode : ∀ bs, c.decode bs = SingleByte.decode limit bs) : SingleByte.Laws c limit where
  getBytes_eq t := Utf8.getBytes_of_resolveCharset (c := .builtin c) rfl t
  encode_length t := by rw [hEncode]; exact SingleByte.encode_length t
  encode_getElem? t i := by rw [hEncode]; exact SingleByte.encode_getElem? hLe t i
  decode_length bs := by rw [hDecode]; exact SingleByte.decode_length bs
  decode_getElem? bs i := by rw [hDecode]; exact SingleByte.decode_getElem? bs i
  decode_encode t := by rw [hEncode, hDecode]; exact SingleByte.decode_encode hq hLe t
  decode_encode_eq_self_iff t := by
    rw [hEncode, hDecode]; exact SingleByte.decode_encode_eq_self_iff hq hLe t

/-- **The single-byte charsets.** ISO-8859-1 with limit `FF` and US-ASCII with limit `7F` obey
the laws of a single-byte charset; ISO-8859-1 reads every byte array back exactly, and US-ASCII
reads it back with every byte from `80` on replaced by `?`. -/
theorem single_byte_codecs :
    SingleByte.Laws .latin1 0xFF ∧ SingleByte.Laws .ascii 0x7F ∧
      (∀ bs, Charset.latin1.encode (Charset.latin1.decode bs) = bs) ∧
      (∀ bs, Charset.ascii.encode (Charset.ascii.decode bs) =
        bs.map fun b => if b < 0x80 then b else 0x3F) :=
  ⟨laws_of_limit (by decide) (by decide) (fun _ => rfl) (fun _ => rfl),
    laws_of_limit (by decide) (by decide) (fun _ => rfl) (fun _ => rfl),
    SingleByte.latin1_encode_decode, SingleByte.ascii_encode_decode⟩

end Transcode
