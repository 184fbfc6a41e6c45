import Mathlib.Algebra.Group.Nat.Defs
import Transcode.Charset.Convert
import Transcode.Proofs.Charset.LoneSurrogates

/-!
# UTF-8: the byte grammar and both round trips

Well-formed UTF-8 is stated here on its own, as the byte sequences of Table 3-7 of the Unicode
Standard (`Utf8.Sequence`, one scalar value each) and their concatenations (`Utf8.WellFormed`):
shortest form, no encoded surrogate, nothing above `10FFFF`, nothing cut short. The encoder and
the decoder are then held to that grammar.

The decoder's pending states carry an invariant, `Pending.Sound`: every value between the least
and the greatest completion of the state is a scalar value. The lead byte's bounds on the first
continuation byte (`A0` after `E0`, `9F` after `ED`, `90` after `F0`, `8F` after `F4`) are
exactly what makes the state sound, and each accepted continuation byte narrows the range, so
everything the decoder emits is a scalar value and decoded text never has a lone surrogate.

## Main results

* `decodeFrom_encodePoint`: the decoder reads the bytes of a scalar value back as that value.
* `isScalar_of_mem_decodeFrom`: the decoder emits scalar values only.
* `sequence_encodePoint`, `exists_encodePoint_of_sequence`: the encoder writes exactly the
  sequences of the grammar.
* `utf8_round_trip`: decoding undoes encoding up to scrubbing, and encoding undoes decoding
  exactly on well-formed bytes; the same through `getBytes` and `getString`.
-/

namespace Transcode.Utf8

open Text (IsScalar)

/-! ## The grammar -/

/-- A continuation byte, `80`–`BF`. -/
def IsTail (b : UInt8) : Prop := 0x80 ≤ b ∧ b ≤ 0xBF

/-- The well-formed byte sequences of one scalar value: the rows of Table 3-7 of the Unicode
Standard. The bounds on the second byte after `E0`, `ED`, `F0` and `F4` rule out overlong forms,
surrogates and values above `10FFFF`. -/
inductive Sequence : List UInt8 → Prop where
  | ascii {a : UInt8} : a ≤ 0x7F → Sequence [a]
  | two {a b : UInt8} : 0xC2 ≤ a → a ≤ 0xDF → IsTail b → Sequence [a, b]
  | threeE0 {b c : UInt8} : 0xA0 ≤ b → b ≤ 0xBF → IsTail c → Sequence [0xE0, b, c]
  | three {a b c : UInt8} : 0xE1 ≤ a → a ≤ 0xEC → IsTail b → IsTail c → Sequence [a, b, c]
  | threeED {b c : UInt8} : 0x80 ≤ b → b ≤ 0x9F → IsTail c → Sequence [0xED, b, c]
  | threeEE {a b c : UInt8} : 0xEE ≤ a → a ≤ 0xEF → IsTail b → IsTail c → Sequence [a, b, c]
  | fourF0 {b c d : UInt8} : 0x90 ≤ b → b ≤ 0xBF → IsTail c → IsTail d → Sequence [0xF0, b, c, d]
  | four {a b c d : UInt8} :
      0xF1 ≤ a → a ≤ 0xF3 → IsTail b → IsTail c → IsTail d → Sequence [a, b, c, d]
  | fourF4 {b c d : UInt8} : 0x80 ≤ b → b ≤ 0x8F → IsTail c → IsTail d → Sequence [0xF4, b, c, d]

/-- Well-formed UTF-8: a concatenation of sequences of the grammar. -/
inductive WellFormed : List UInt8 → Prop where
  | nil : WellFormed []
  | cons {s rest : List UInt8} : Sequence s → WellFormed rest → WellFormed (s ++ rest)

/-! ## The encoder's byte shapes -/

private theorem toUInt8_eq {n : Nat} {b : UInt8} (h : n % 256 = b.toNat) : n.toUInt8 = b := by
  rw [← UInt8.toNat_inj]; simpa using h

theorem encodePoint_one {c : Nat} (h : c < 0x80) : encodePoint c = [c.toUInt8] := by
  simp [encodePoint, h]

theorem encodePoint_two {c : Nat} (h1 : 0x80 ≤ c) (h2 : c < 0x800) :
    encodePoint c = [(0xC0 + c / 64).toUInt8, (0x80 + c % 64).toUInt8] := by
  simp [encodePoint, h2, show ¬ c < 0x80 by omega]

theorem encodePoint_three {c : Nat} (h1 : 0x800 ≤ c) (h2 : c < 0x10000) :
    encodePoint c =
      [(0xE0 + c / 4096).toUInt8, (0x80 + c / 64 % 64).toUInt8, (0x80 + c % 64).toUInt8] := by
  simp [encodePoint, h2, show ¬ c < 0x80 by omega, show ¬ c < 0x800 by omega]

theorem encodePoint_four {c : Nat} (h1 : 0x10000 ≤ c) :
    encodePoint c =
      [(0xF0 + c / 262144).toUInt8, (0x80 + c / 4096 % 64).toUInt8,
        (0x80 + c / 64 % 64).toUInt8, (0x80 + c % 64).toUInt8] := by
  simp [encodePoint, show ¬ c < 0x80 by omega, show ¬ c < 0x800 by omega,
    show ¬ c < 0x10000 by omega]

/-- A byte written as `80` plus six bits is a continuation byte. -/
private theorem isTail_toUInt8 (n : Nat) : IsTail (0x80 + n % 64).toUInt8 := by
  unfold IsTail
  simp only [UInt8.le_iff_toNat_le, Nat.toUInt8_eq, UInt8.toNat_ofNat', UInt8.reduceToNat]
  omega

/-- **The encoder writes the grammar**: the bytes of a scalar value form one sequence of
Table 3-7, the row fixed by the value's range. -/
theorem sequence_encodePoint {c : Nat} (hc : IsScalar c) : Sequence (encodePoint c) := by
  unfold IsScalar at hc
  by_cases h1 : c < 0x80
  · rw [encodePoint_one h1]
    refine .ascii ?_
    simp only [UInt8.le_iff_toNat_le, Nat.toUInt8_eq, UInt8.toNat_ofNat', UInt8.reduceToNat]
    omega
  by_cases h2 : c < 0x800
  · rw [encodePoint_two (by omega) h2]
    refine .two ?_ ?_ (isTail_toUInt8 c) <;>
    · simp only [UInt8.le_iff_toNat_le, Nat.toUInt8_eq, UInt8.toNat_ofNat', UInt8.reduceToNat]
      omega
  by_cases h3 : c < 0x10000
  · rw [encodePoint_three (by omega) h3]
    by_cases hE0 : c < 0x1000
    · rw [toUInt8_eq (b := 0xE0) (by simp; omega)]
      refine .threeE0 ?_ ?_ (isTail_toUInt8 c) <;>
      · simp only [UInt8.le_iff_toNat_le, Nat.toUInt8_eq, UInt8.toNat_ofNat', UInt8.reduceToNat]
        omega
    by_cases hEC : c < 0xD000
    · refine .three ?_ ?_ (isTail_toUInt8 _) (isTail_toUInt8 c) <;>
      · simp only [UInt8.le_iff_toNat_le, Nat.toUInt8_eq, UInt8.toNat_ofNat', UInt8.reduceToNat]
        omega
    by_cases hED : c < 0xD800
    · rw [toUInt8_eq (b := 0xED) (by simp; omega)]
      refine .threeED ?_ ?_ (isTail_toUInt8 c) <;>
      · simp only [UInt8.le_iff_toNat_le, Nat.toUInt8_eq, UInt8.toNat_ofNat', UInt8.reduceToNat]
        omega
    · refine .threeEE ?_ ?_ (isTail_toUInt8 _) (isTail_toUInt8 c) <;>
      · simp only [UInt8.le_iff_toNat_le, Nat.toUInt8_eq, UInt8.toNat_ofNat', UInt8.reduceToNat]
        omega
  rw [encodePoint_four (by omega)]
  by_cases hF0 : c < 0x40000
  · rw [toUInt8_eq (b := 0xF0) (by simp; omega)]
    refine .fourF0 ?_ ?_ (isTail_toUInt8 _) (isTail_toUInt8 c) <;>
    · simp only [UInt8.le_iff_toNat_le, Nat.toUInt8_eq, UInt8.toNat_ofNat', UInt8.reduceToNat]
      omega
  by_cases hF3 : c < 0x100000
  · refine .four ?_ ?_ (isTail_toUInt8 _) (isTail_toUInt8 _) (isTail_toUInt8 c) <;>
    · simp only [UInt8.le_iff_toNat_le, Nat.toUInt8_eq, UInt8.toNat_ofNat', UInt8.reduceToNat]
      omega
  · rw [toUInt8_eq (b := 0xF4) (by simp; omega)]
    refine .fourF4 ?_ ?_ (isTail_toUInt8 _) (isTail_toUInt8 c) <;>
    · simp only [UInt8.le_iff_toNat_le, Nat.toUInt8_eq, UInt8.toNat_ofNat', UInt8.reduceToNat]
      omega

/-- The bounds of a continuation byte as numbers. -/
private theorem isTail_toNat {b : UInt8} (h : IsTail b) : 0x80 ≤ b.toNat ∧ b.toNat ≤ 0xBF := by
  simpa [IsTail, UInt8.le_iff_toNat_le] using h

/-- **The grammar is the encoder's image**: each sequence of Table 3-7 is the encoding of one
scalar value, which gathers the low bits of its bytes. -/
theorem exists_encodePoint_of_sequence {bs : List UInt8} (h : Sequence bs) :
    ∃ c, IsScalar c ∧ encodePoint c = bs := by
  cases h with
  | @ascii a ha =>
    have ha' : a.toNat ≤ 0x7F := by simpa [UInt8.le_iff_toNat_le] using ha
    refine ⟨a.toNat, by unfold IsScalar; omega, ?_⟩
    rw [encodePoint_one (by omega), toUInt8_eq (b := a) (by omega)]
  | @two a b ha₁ ha₂ hb =>
    simp only [UInt8.le_iff_toNat_le, UInt8.reduceToNat] at ha₁ ha₂
    have hb' := isTail_toNat hb
    refine ⟨a.toNat % 32 * 64 + b.toNat % 64, by unfold IsScalar; omega, ?_⟩
    rw [encodePoint_two (by omega) (by omega)]
    simp only [List.cons.injEq, and_true]
    exact ⟨toUInt8_eq (by omega), toUInt8_eq (by omega)⟩
  | @threeE0 b c hb₁ hb₂ hc =>
    simp only [UInt8.le_iff_toNat_le, UInt8.reduceToNat] at hb₁ hb₂
    have hc' := isTail_toNat hc
    refine ⟨b.toNat % 64 * 64 + c.toNat % 64, by unfold IsScalar; omega, ?_⟩
    rw [encodePoint_three (by omega) (by omega)]
    simp only [List.cons.injEq, and_true]
    exact ⟨toUInt8_eq (by simp only [UInt8.reduceToNat]; omega), toUInt8_eq (by omega),
      toUInt8_eq (by omega)⟩
  | @three a b c ha₁ ha₂ hb hc =>
    simp only [UInt8.le_iff_toNat_le, UInt8.reduceToNat] at ha₁ ha₂
    have hb' := isTail_toNat hb
    have hc' := isTail_toNat hc
    refine ⟨a.toNat % 16 * 4096 + b.toNat % 64 * 64 + c.toNat % 64,
      by unfold IsScalar; omega, ?_⟩
    rw [encodePoint_three (by omega) (by omega)]
    simp only [List.cons.injEq, and_true]
    exact ⟨toUInt8_eq (by omega), toUInt8_eq (by omega), toUInt8_eq (by omega)⟩
  | @threeED b c hb₁ hb₂ hc =>
    simp only [UInt8.le_iff_toNat_le, UInt8.reduceToNat] at hb₁ hb₂
    have hc' := isTail_toNat hc
    refine ⟨0xD000 + b.toNat % 64 * 64 + c.toNat % 64, by unfold IsScalar; omega, ?_⟩
    rw [encodePoint_three (by omega) (by omega)]
    simp only [List.cons.injEq, and_true]
    exact ⟨toUInt8_eq (by simp only [UInt8.reduceToNat]; omega), toUInt8_eq (by omega),
      toUInt8_eq (by omega)⟩
  | @threeEE a b c ha₁ ha₂ hb hc =>
    simp only [UInt8.le_iff_toNat_le, UInt8.reduceToNat] at ha₁ ha₂
    have hb' := isTail_toNat hb
    have hc' := isTail_toNat hc
    refine ⟨a.toNat % 16 * 4096 + b.toNat % 64 * 64 + c.toNat % 64,
      by unfold IsScalar; omega, ?_⟩
    rw [encodePoint_three (by omega) (by omega)]
    simp only [List.cons.injEq, and_true]
    exact ⟨toUInt8_eq (by omega), toUInt8_eq (by omega), toUInt8_eq (by omega)⟩
  | @fourF0 b c d hb₁ hb₂ hc hd =>
    simp only [UInt8.le_iff_toNat_le, UInt8.reduceToNat] at hb₁ hb₂
    have hc' := isTail_toNat hc
    have hd' := isTail_toNat hd
    refine ⟨b.toNat % 64 * 4096 + c.toNat % 64 * 64 + d.toNat % 64,
      by unfold IsScalar; omega, ?_⟩
    rw [encodePoint_four (by omega)]
    simp only [List.cons.injEq, and_true]
    exact ⟨toUInt8_eq (by simp only [UInt8.reduceToNat]; omega), toUInt8_eq (by omega),
      toUInt8_eq (by omega), toUInt8_eq (by omega)⟩
  | @four a b c d ha₁ ha₂ hb hc hd =>
    simp only [UInt8.le_iff_toNat_le, UInt8.reduceToNat] at ha₁ ha₂
    have hb' := isTail_toNat hb
    have hc' := isTail_toNat hc
    have hd' := isTail_toNat hd
    refine ⟨a.toNat % 8 * 262144 + b.toNat % 64 * 4096 + c.toNat % 64 * 64 + d.toNat % 64,
      by unfold IsScalar; omega, ?_⟩
    rw [encodePoint_four (by omega)]
    simp only [List.cons.injEq, and_true]
    exact ⟨toUInt8_eq (by omega), toUInt8_eq (by omega), toUInt8_eq (by omega),
      toUInt8_eq (by omega)⟩
  | @fourF4 b c d hb₁ hb₂ hc hd =>
    simp only [UInt8.le_iff_toNat_le, UInt8.reduceToNat] at hb₁ hb₂
    have hc' := isTail_toNat hc
    have hd' := isTail_toNat hd
    refine ⟨0x100000 + b.toNat % 64 * 4096 + c.toNat % 64 * 64 + d.toNat % 64,
      by unfold IsScalar; omega, ?_⟩
    rw [encodePoint_four (by omega)]
    simp only [List.cons.injEq, and_true]
    exact ⟨toUInt8_eq (by simp only [UInt8.reduceToNat]; omega), toUInt8_eq (by omega),
      toUInt8_eq (by omega), toUInt8_eq (by omega)⟩

/-- Scalar values write well-formed UTF-8. -/
theorem wellFormed_flatMap_encodePoint (cs : List Nat) (hcs : ∀ c ∈ cs, IsScalar c) :
    WellFormed (cs.flatMap encodePoint) := by
  induction cs with
  | nil => exact .nil
  | cons c cs ih =>
    rw [List.flatMap_cons]
    exact .cons (sequence_encodePoint (hcs c (by simp))) (ih fun c' hc' => hcs c' (by simp [hc']))

/-! ## The decoder, one byte at a time -/

theorem decodeFrom_emit {b : UInt8} {c : Nat} (h : start b = .emit c) (rest : List UInt8) :
    decodeFrom none (b :: rest) = c :: decodeFrom none rest := by
  rw [decodeFrom, h]

theorem decodeFrom_begin {b : UInt8} {p : Pending} (h : start b = .begin p) (rest : List UInt8) :
    decodeFrom none (b :: rest) = decodeFrom (some p) rest := by
  rw [decodeFrom, h]

theorem decodeFrom_accept {p : Pending} {b : UInt8} (hIn : p.lower ≤ b ∧ b ≤ p.upper)
    (hNeed : p.need ≤ 1) (rest : List UInt8) :
    decodeFrom (some p) (b :: rest) = (p.acc * 64 + b.toNat % 64) :: decodeFrom none rest := by
  rw [decodeFrom]
  simp [hIn.1, hIn.2, hNeed]

theorem decodeFrom_continue {p : Pending} {b : UInt8} (hIn : p.lower ≤ b ∧ b ≤ p.upper)
    (hNeed : 1 < p.need) (rest : List UInt8) :
    decodeFrom (some p) (b :: rest) =
      decodeFrom (some ⟨p.need - 1, p.acc * 64 + b.toNat % 64, 0x80, 0xBF⟩) rest := by
  rw [decodeFrom]
  simp [hIn.1, hIn.2, show ¬ p.need ≤ 1 by omega]

/-- A byte outside the allowed range ends the pending sequence with one `U+FFFD` and is read
again from the initial state. -/
theorem decodeFrom_reject {p : Pending} {b : UInt8} (hOut : ¬ (p.lower ≤ b ∧ b ≤ p.upper))
    (rest : List UInt8) :
    decodeFrom (some p) (b :: rest) = 0xFFFD :: decodeFrom none (b :: rest) := by
  rw [decodeFrom.eq_4, if_neg (by simpa using hOut)]

theorem start_one {b : UInt8} (h : b.toNat ≤ 0x7F) : start b = .emit b.toNat := by
  simp [start, UInt8.le_iff_toNat_le, h]

theorem start_two {b : UInt8} (h1 : 0xC2 ≤ b.toNat) (h2 : b.toNat ≤ 0xDF) :
    start b = .begin ⟨1, b.toNat % 32, 0x80, 0xBF⟩ := by
  simp [start, UInt8.le_iff_toNat_le, h1, h2, show ¬ b.toNat ≤ 0x7F by omega]

/-- After a three-byte lead the next byte is bounded by `A0` after `E0` and by `9F` after
`ED`. -/
theorem start_three {b : UInt8} (h1 : 0xE0 ≤ b.toNat) (h2 : b.toNat ≤ 0xEF) :
    ∃ lo hi : UInt8, start b = .begin ⟨2, b.toNat % 16, lo, hi⟩ ∧
      lo.toNat = (if b.toNat = 0xE0 then 0xA0 else 0x80) ∧
      hi.toNat = (if b.toNat = 0xED then 0x9F else 0xBF) := by
  refine ⟨if b = 0xE0 then 0xA0 else 0x80, if b = 0xED then 0x9F else 0xBF, ?_, ?_, ?_⟩
  · simp [start, UInt8.le_iff_toNat_le, h1, h2, show ¬ b.toNat ≤ 0x7F by omega,
      show ¬ b.toNat ≤ 0xDF by omega]
  · by_cases hb : b.toNat = 0xE0
    · simp [hb, ← UInt8.toNat_inj]
    · simp [hb, ← UInt8.toNat_inj]
  · by_cases hb : b.toNat = 0xED
    · simp [hb, ← UInt8.toNat_inj]
    · simp [hb, ← UInt8.toNat_inj]

/-- After a four-byte lead the next byte is bounded by `90` after `F0` and by `8F` after
`F4`. -/
theorem start_four {b : UInt8} (h1 : 0xF0 ≤ b.toNat) (h2 : b.toNat ≤ 0xF4) :
    ∃ lo hi : UInt8, start b = .begin ⟨3, b.toNat % 8, lo, hi⟩ ∧
      lo.toNat = (if b.toNat = 0xF0 then 0x90 else 0x80) ∧
      hi.toNat = (if b.toNat = 0xF4 then 0x8F else 0xBF) := by
  refine ⟨if b = 0xF0 then 0x90 else 0x80, if b = 0xF4 then 0x8F else 0xBF, ?_, ?_, ?_⟩
  · simp [start, UInt8.le_iff_toNat_le, h1, h2, show ¬ b.toNat ≤ 0x7F by omega,
      show ¬ b.toNat ≤ 0xDF by omega, show ¬ b.toNat ≤ 0xEF by omega]
  · by_cases hb : b.toNat = 0xF0
    · simp [hb, ← UInt8.toNat_inj]
    · simp [hb, ← UInt8.toNat_inj]
  · by_cases hb : b.toNat = 0xF4
    · simp [hb, ← UInt8.toNat_inj]
    · simp [hb, ← UInt8.toNat_inj]

/-- A byte that starts nothing (`80`–`C1`, `F5`–`FF`) is one `U+FFFD`. -/
theorem start_other {b : UInt8} (h1 : 0x7F < b.toNat)
    (h2 : b.toNat < 0xC2 ∨ 0xF4 < b.toNat) : start b = .emit 0xFFFD := by
  have hLt : b.toNat < 256 := UInt8.toNat_lt b
  simp only [start, UInt8.le_iff_toNat_le, UInt8.reduceToNat, Bool.and_eq_true,
    decide_eq_true_eq]
  rw [if_neg (by omega), if_neg (by omega), if_neg (by omega), if_neg (by omega)]

/-! ## What a pending sequence can complete to -/

namespace Pending

/-- The least value the pending sequence can complete to: the next byte at its lower bound,
every later one at `80`. -/
def least (p : Pending) : Nat := (p.acc * 64 + (p.lower.toNat - 0x80)) * 64 ^ (p.need - 1)

/-- The greatest value the pending sequence can complete to: the next byte at its upper bound,
every later one at `BF`. -/
def greatest (p : Pending) : Nat :=
  (p.acc * 64 + (p.upper.toNat - 0x80)) * 64 ^ (p.need - 1) + (64 ^ (p.need - 1) - 1)

/-- A pending sequence that completes to scalar values only: its bounds are continuation
bytes, it needs one to three more of them, and everything between its least and greatest
completion lies below the surrogates or above them and up to `10FFFF`. -/
structure Sound (p : Pending) : Prop where
  lower_ge : 0x80 ≤ p.lower.toNat
  upper_le : p.upper.toNat ≤ 0xBF
  need_pos : 1 ≤ p.need
  need_le : p.need ≤ 3
  scalar : p.greatest < 0xD800 ∨ 0xE000 ≤ p.least ∧ p.greatest ≤ 0x10FFFF

/-- The last continuation byte completes a sound sequence to a scalar value. -/
theorem Sound.complete {p : Pending} (hp : p.Sound) {b : UInt8}
    (hIn : p.lower ≤ b ∧ b ≤ p.upper) (hNeed : p.need ≤ 1) :
    IsScalar (p.acc * 64 + b.toNat % 64) := by
  have hOne : p.need = 1 := by have := hp.need_pos; omega
  have hScalar := hp.scalar
  simp only [least, greatest, hOne, Nat.sub_self, Nat.pow_zero, Nat.mul_one] at hScalar
  have hb : p.lower.toNat ≤ b.toNat ∧ b.toNat ≤ p.upper.toNat := by
    simpa [UInt8.le_iff_toNat_le] using hIn
  have hLower := hp.lower_ge
  have hUpper := hp.upper_le
  unfold IsScalar
  omega

/-- An accepted continuation byte that is not the last keeps the sequence sound: what the
rest can complete to lies within what the whole could. -/
theorem Sound.next {p : Pending} (hp : p.Sound) {b : UInt8}
    (hIn : p.lower ≤ b ∧ b ≤ p.upper) (hNeed : 1 < p.need) :
    Sound ⟨p.need - 1, p.acc * 64 + b.toNat % 64, 0x80, 0xBF⟩ := by
  have hb : p.lower.toNat ≤ b.toNat ∧ b.toNat ≤ p.upper.toNat := by
    simpa [UInt8.le_iff_toNat_le] using hIn
  have hLower := hp.lower_ge
  have hUpper := hp.upper_le
  have hScalar := hp.scalar
  have hNeedLe := hp.need_le
  refine ⟨by simp, by simp, show 1 ≤ p.need - 1 by omega, show p.need - 1 ≤ 3 by omega, ?_⟩
  have hTwoThree : p.need = 2 ∨ p.need = 3 := by omega
  rcases hTwoThree with hTwo | hThree
  · simp only [least, greatest, hTwo] at hScalar ⊢
    simp only [UInt8.reduceToNat, Nat.reduceSub, Nat.pow_zero, Nat.pow_one] at hScalar ⊢
    omega
  · simp only [least, greatest, hThree] at hScalar ⊢
    simp only [UInt8.reduceToNat, Nat.reduceSub, Nat.pow_one, Nat.reducePow] at hScalar ⊢
    omega

end Pending

/-- **Lead bytes start sound sequences**: the bounds a lead byte puts on the next byte are
exactly those that keep overlong forms, surrogates and values above `10FFFF` out. -/
theorem start_sound {b : UInt8} {p : Pending} (h : start b = .begin p) : p.Sound := by
  have hLt : b.toNat < 256 := UInt8.toNat_lt b
  by_cases h1 : b.toNat ≤ 0x7F
  · rw [start_one h1] at h; cases h
  by_cases h2 : 0xC2 ≤ b.toNat ∧ b.toNat ≤ 0xDF
  · rw [start_two h2.1 h2.2] at h
    cases h
    refine ⟨by simp, by simp, by simp, by simp, .inl ?_⟩
    simp only [Pending.greatest, UInt8.reduceToNat]
    omega
  by_cases h3 : 0xE0 ≤ b.toNat ∧ b.toNat ≤ 0xEF
  · obtain ⟨lo, hi, hStart, hLo, hHi⟩ := start_three h3.1 h3.2
    rw [hStart] at h
    cases h
    refine ⟨show 0x80 ≤ lo.toNat by split at hLo <;> omega,
      show hi.toNat ≤ 0xBF by split at hHi <;> omega, by simp, by simp, ?_⟩
    simp only [Pending.least, Pending.greatest, hLo, hHi]
    split <;> split <;> omega
  by_cases h4 : 0xF0 ≤ b.toNat ∧ b.toNat ≤ 0xF4
  · obtain ⟨lo, hi, hStart, hLo, hHi⟩ := start_four h4.1 h4.2
    rw [hStart] at h
    cases h
    refine ⟨show 0x80 ≤ lo.toNat by split at hLo <;> omega,
      show hi.toNat ≤ 0xBF by split at hHi <;> omega, by simp, by simp, .inr ?_⟩
    simp only [Pending.least, Pending.greatest, hLo, hHi]
    split <;> split <;> omega
  · rw [start_other (by omega) (by omega)] at h
    cases h

/-- What a byte read in the initial state emits is a scalar value. -/
theorem isScalar_of_start_emit {b : UInt8} {c : Nat} (h : start b = .emit c) : IsScalar c := by
  have hLt : b.toNat < 256 := UInt8.toNat_lt b
  by_cases h1 : b.toNat ≤ 0x7F
  · rw [start_one h1] at h
    cases h
    unfold IsScalar; omega
  by_cases h2 : 0xC2 ≤ b.toNat ∧ b.toNat ≤ 0xF4
  · -- every such byte begins a sequence
    exfalso
    by_cases h3 : b.toNat ≤ 0xDF
    · rw [start_two h2.1 h3] at h; cases h
    by_cases h4 : b.toNat ≤ 0xEF
    · obtain ⟨lo, hi, hStart, -, -⟩ := start_three (by omega) h4
      rw [hStart] at h; cases h
    · obtain ⟨lo, hi, hStart, -, -⟩ := start_four (by omega) h2.2
      rw [hStart] at h; cases h
  · rw [start_other (by omega) (by omega)] at h
    cases h
    unfold IsScalar; omega

/-- **The decoder emits scalar values only**, from the initial state or from any sound pending
sequence. -/
theorem isScalar_of_mem_decodeFrom (st : Option Pending) (bs : List UInt8)
    (hst : ∀ p, st = some p → p.Sound) : ∀ c ∈ decodeFrom st bs, IsScalar c := by
  fun_induction decodeFrom st bs with
  | case1 => simp
  | case2 p => simp [IsScalar]
  | case3 b rest c hStart ih =>
    intro c' hc'
    rcases List.mem_cons.mp hc' with hEq | hc'
    · rw [hEq]; exact isScalar_of_start_emit hStart
    · exact ih (by simp) c' hc'
  | case4 b rest p hStart ih =>
    exact ih fun q hq => by cases hq; exact start_sound hStart
  | case5 p b rest hIn acc hNeed ih =>
    have hp := hst p rfl
    have hIn' : p.lower ≤ b ∧ b ≤ p.upper := by simpa using hIn
    intro c hc
    rcases List.mem_cons.mp hc with hEq | hc
    · rw [hEq]; exact hp.complete hIn' hNeed
    · exact ih (by simp) c hc
  | case6 p b rest hIn acc hNeed ih =>
    have hp := hst p rfl
    have hIn' : p.lower ≤ b ∧ b ≤ p.upper := by simpa using hIn
    exact ih fun q hq => by cases hq; exact hp.next hIn' (by omega)
  | case7 p b rest _ ih =>
    intro c hc
    rcases List.mem_cons.mp hc with hEq | hc
    · rw [hEq]; unfold IsScalar; omega
    · exact ih (by simp) c hc

/-! ## Reading back the bytes of a scalar value -/

/-- **The decoder reads back the encoder**: the bytes of a scalar value decode to that value,
whatever follows them. -/
theorem decodeFrom_encodePoint {c : Nat} (hc : IsScalar c) (rest : List UInt8) :
    decodeFrom none (encodePoint c ++ rest) = c :: decodeFrom none rest := by
  unfold IsScalar at hc
  by_cases h1 : c < 0x80
  · have hByte : c.toUInt8.toNat = c := by simp; omega
    rw [encodePoint_one h1, List.singleton_append, decodeFrom_emit (start_one (by omega)),
      hByte]
  by_cases h2 : c < 0x800
  · have hLead : (0xC0 + c / 64).toUInt8.toNat = 0xC0 + c / 64 := by simp; omega
    have hLast : (0x80 + c % 64).toUInt8.toNat = 0x80 + c % 64 := by simp; omega
    rw [encodePoint_two (by omega) h2, List.cons_append, List.cons_append, List.nil_append,
      decodeFrom_begin (start_two (by omega) (by omega)), decodeFrom_accept]
    · congr 1
      simp only [hLead, hLast]
      omega
    · simp only [UInt8.le_iff_toNat_le, UInt8.reduceToNat, hLast]; omega
    · exact Nat.le_refl 1
  by_cases h3 : c < 0x10000
  · -- the lead byte's bounds on the second byte are met because `c` is no surrogate
    have hLead : (0xE0 + c / 4096).toUInt8.toNat = 0xE0 + c / 4096 := by simp; omega
    have hMid : (0x80 + c / 64 % 64).toUInt8.toNat = 0x80 + c / 64 % 64 := by simp; omega
    have hLast : (0x80 + c % 64).toUInt8.toNat = 0x80 + c % 64 := by simp; omega
    obtain ⟨lo, hi, hStart, hLo, hHi⟩ := start_three (b := (0xE0 + c / 4096).toUInt8)
      (by omega) (by omega)
    rw [hLead] at hLo hHi
    rw [encodePoint_three (by omega) h3, List.cons_append, List.cons_append, List.cons_append,
      List.nil_append, decodeFrom_begin hStart, decodeFrom_continue, decodeFrom_accept]
    · congr 1
      simp only [hLead, hMid, hLast]
      omega
    · simp only [UInt8.le_iff_toNat_le, UInt8.reduceToNat, hLast]; omega
    · exact Nat.le_refl 1
    · simp only [UInt8.le_iff_toNat_le, hMid, hLo, hHi]
      split <;> split <;> omega
    · exact Nat.lt_succ_self 1
  · have hLead : (0xF0 + c / 262144).toUInt8.toNat = 0xF0 + c / 262144 := by simp; omega
    have hSecond : (0x80 + c / 4096 % 64).toUInt8.toNat = 0x80 + c / 4096 % 64 := by
      simp; omega
    have hThird : (0x80 + c / 64 % 64).toUInt8.toNat = 0x80 + c / 64 % 64 := by simp; omega
    have hLast : (0x80 + c % 64).toUInt8.toNat = 0x80 + c % 64 := by simp; omega
    obtain ⟨lo, hi, hStart, hLo, hHi⟩ := start_four (b := (0xF0 + c / 262144).toUInt8)
      (by omega) (by omega)
    rw [hLead] at hLo hHi
    rw [encodePoint_four (by omega), List.cons_append, List.cons_append, List.cons_append,
      List.cons_append, List.nil_append, decodeFrom_begin hStart, decodeFrom_continue,
      decodeFrom_continue, decodeFrom_accept]
    · congr 1
      simp only [hLead, hSecond, hThird, hLast]
      omega
    · simp only [UInt8.le_iff_toNat_le, UInt8.reduceToNat, hLast]; omega
    · exact Nat.le_refl 1
    · simp only [UInt8.le_iff_toNat_le, UInt8.reduceToNat, hThird]; omega
    · exact Nat.lt_succ_self 1
    · simp only [UInt8.le_iff_toNat_le, hSecond, hLo, hHi]
      split <;> split <;> omega
    · exact Nat.lt_succ_of_lt (Nat.lt_succ_self 1)

theorem decodeFrom_flatMap_encodePoint (cs : List Nat) (hcs : ∀ c ∈ cs, IsScalar c) :
    decodeFrom none (cs.flatMap encodePoint) = cs := by
  induction cs with
  | nil => simp [decodeFrom]
  | cons c cs ih =>
    rw [List.flatMap_cons, decodeFrom_encodePoint (hcs c (by simp)),
      ih fun c' hc' => hcs c' (by simp [hc'])]

/-! ## Both round trips -/

/-- Decoding undoes encoding, up to the `?` written for each lone surrogate. -/
theorem decode_encode (t : Text) : decode (encode t) = t.scrub 0x3F := by
  have hScalar : ∀ c ∈ (t.scrub 0x3F).codePoints, IsScalar c :=
    Text.wellFormed_scrub (by decide) t
  unfold decode
  rw [encode_eq_scrub, decodeFrom_flatMap_encodePoint _ hScalar, Text.ofCodePoints_codePoints]

/-- Decoded text never holds a lone surrogate. -/
theorem wellFormed_decode (bs : List UInt8) : (decode bs).WellFormed :=
  Text.wellFormed_ofCodePoints _ (isScalar_of_mem_decodeFrom none bs (by simp))

/-- Re-encoding decoded bytes writes out the decoded values one by one: decoded text has no lone
surrogate to scrub, and it reads back as the values it was written from. -/
theorem encode_decode (bs : List UInt8) :
    encode (decode bs) = (decodeFrom none bs).flatMap encodePoint := by
  have hScalar := isScalar_of_mem_decodeFrom none bs (by simp)
  rw [encode_eq_scrub, (Text.scrub_eq_self_iff (by decide) _).mpr (wellFormed_decode bs)]
  unfold decode
  rw [Text.codePoints_ofCodePoints _ hScalar]

/-- **Encoding undoes decoding exactly on well-formed UTF-8.** -/
theorem encode_decode_eq_self_iff (bs : List UInt8) :
    encode (decode bs) = bs ↔ WellFormed bs := by
  rw [encode_decode]
  constructor
  · intro hEq
    rw [← hEq]
    exact wellFormed_flatMap_encodePoint _ (isScalar_of_mem_decodeFrom none bs (by simp))
  · intro hWf
    -- one sequence of the grammar at a time: it is the encoding of the value it decodes to
    induction hWf with
    | nil => simp [decodeFrom]
    | cons hSeq _ ih =>
      obtain ⟨c, hc, rfl⟩ := exists_encodePoint_of_sequence hSeq
      rw [decodeFrom_encodePoint hc, List.flatMap_cons, ih]

/-! ## Through the conversion functions -/

theorem getBytes_of_resolveCharset {spec : CharsetSpec} {c : CharsetRef}
    (h : resolveCharset spec = .ok c) (t : Text) :
    getBytes (some t) (some spec) = .ok (c.encodeWithReport t).1 := by
  simp only [getBytes, Check.present, bind, Except.bind, h]
  rfl

theorem getString_of_resolveCharset {spec : CharsetSpec} {c : CharsetRef}
    (h : resolveCharset spec = .ok c) (src : ByteSource) :
    getString (some src) (some spec) = .ok (c.decode src.toBytes) := by
  simp only [getString, Check.present, bind, Except.bind, h]
  rfl

/-- **UTF-8 round trips.** Decoding the encoding of any text gives the text with each lone
surrogate written as `?`, so the text itself exactly when it has none (a leading `U+FEFF`
included: the decoder keeps it). Decoding any bytes gives a text without lone surrogates, and
encoding it again gives the bytes back exactly when they are well-formed UTF-8. `getBytes` and
`getString` encode and decode so for every charset argument that resolves to UTF-8. -/
theorem utf8_round_trip :
    (∀ t : Text, decode (encode t) = t.scrub 0x3F ∧ (decode (encode t) = t ↔ t.WellFormed)) ∧
    (∀ bs : List UInt8, (decode bs).WellFormed ∧ (encode (decode bs) = bs ↔ WellFormed bs)) ∧
    (∀ spec : CharsetSpec, resolveCharset spec = .ok (.builtin .utf8) →
      ∀ (t : Text) (bs : List UInt8), getBytes (some t) (some spec) = .ok (encode t) ∧
        getString (some (.bytes bs)) (some spec) = .ok (decode bs)) := by
  refine ⟨fun t => ⟨decode_encode t, ?_⟩, fun bs => ⟨wellFormed_decode bs,
    encode_decode_eq_self_iff bs⟩, fun spec hSpec t bs => ⟨?_, ?_⟩⟩
  · rw [decode_encode]
    exact Text.scrub_eq_self_iff (by decide) t
  · exact getBytes_of_resolveCharset hSpec t
  · exact getString_of_resolveCharset hSpec (.bytes bs)

set_option maxRecDepth 2048 in
/-- The round trip through the conversion functions for the name ` Utf8` (trimmed and folded to
the alias `utf8`), on a text that starts with a byte order mark and holds a lone high surrogate,
and on the bytes of a byte order mark. -/
theorem utf8_round_trip_by_name :
    resolveCharset (.named (.ofString " Utf8")) = .ok (.builtin .utf8) ∧
      getBytes (some ⟨[0xFEFF, 0xD800, 0x41]⟩) (some (.named (.ofString " Utf8"))) =
        .ok (encode ⟨[0xFEFF, 0xD800, 0x41]⟩) ∧
      getString (some (.bytes [0xEF, 0xBB, 0xBF])) (some (.named (.ofString " Utf8"))) =
        .ok (decode [0xEF, 0xBB, 0xBF]) :=
  have hSpec : resolveCharset (.named (.ofString " Utf8")) = .ok (.builtin .utf8) := by rfl
  ⟨hSpec, utf8_round_trip.2.2 _ hSpec ⟨[0xFEFF, 0xD800, 0x41]⟩ [0xEF, 0xBB, 0xBF]⟩

end Transcode.Utf8
