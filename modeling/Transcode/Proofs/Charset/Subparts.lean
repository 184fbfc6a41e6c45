import Transcode.Proofs.Charset.Utf8
import Transcode.Proofs.Charset.Report

/-!
# UTF-8 decoding by maximal subparts

The Unicode Standard (§3.9, "U+FFFD Substitution of Maximal Subparts") describes how a decoder
that replaces ill-formed input should read it: from left to right, a well-formed sequence of
Table 3-7 yields its scalar value, and where none starts, the *maximal subpart* (the longest
prefix that is an initial part of some well-formed sequence, and at least one byte) yields one
`U+FFFD`. `Utf8.Substitutes` states that reading as a relation between bytes and code points,
with no reference to the decoder.

The decoder is a state machine whose pending states carry bounds for the next byte. What the
two have in common is which continuations a lead byte admits: `sequence_cons_iff` says that
the sequences starting with a lead byte are exactly the continuations that stay within the
bounds of its pending state (`Fits`) and complete it. From there, the decoder reads one chunk at
a time (`decodeFrom_chunk`): either a whole sequence or a maximal subpart, and a byte that
breaks a pending sequence is the first byte of what follows. Since maximal subparts are
unique, the decoder's output is the reference's, and the reference determines its output.

## Main results

* `Utf8.substitutes_iff`: the decoder's code points are exactly those the reference yields.
* `Utf8.ascii_decode`: the characters below `U+0080` of decoded text are the bytes below `80`.
* `Utf8.decode_maximal_subparts`: decoding by maximal subparts, with the byte order mark kept and
  the charset given as itself or by name.
-/

namespace Transcode.Utf8

open Text (IsScalar)

/-! ## The reference decoder -/

/-- A proper initial part of a sequence of the grammar; the empty list is one. -/
def IsInitial (p : List UInt8) : Prop := ∃ s, Sequence s ∧ p <+: s ∧ p ≠ s

/-- `p` is the maximal subpart at the start of `bs`: the longest prefix of `bs` that is an
initial part of a sequence of the grammar, and at least one byte. -/
def IsMaximalSubpart (p bs : List UInt8) : Prop :=
  p <+: bs ∧ p ≠ [] ∧ (p.length = 1 ∨ IsInitial p) ∧
    ∀ q, q <+: bs → IsInitial q → q.length ≤ p.length

/-- The reference decoder of the Unicode Standard, substituting maximal subparts, as a relation
between bytes and the code points they decode to. Read from the left, the bytes of a scalar
value (a sequence of Table 3-7, `sequence_encodePoint`) yield that value; where no sequence of
the grammar starts, the maximal subpart yields one `U+FFFD`. -/
inductive Substitutes : List UInt8 → List Nat → Prop where
  | nil : Substitutes [] []
  | scalar {c : Nat} {rest : List UInt8} {out : List Nat} : IsScalar c →
      Substitutes rest out → Substitutes (encodePoint c ++ rest) (c :: out)
  | subpart {p rest : List UInt8} {out : List Nat} : (∀ s, Sequence s → ¬ s <+: p ++ rest) →
      IsMaximalSubpart p (p ++ rest) → Substitutes rest out →
      Substitutes (p ++ rest) (0xFFFD :: out)

/-- Maximal subparts are unique: both are prefixes of one list, and each is at least as long as
the other. -/
theorem IsMaximalSubpart.unique {p q bs : List UInt8} (hp : IsMaximalSubpart p bs)
    (hq : IsMaximalSubpart q bs) : p = q := by
  obtain ⟨hpPre, hpNe, hpInit, hpMax⟩ := hp
  obtain ⟨hqPre, hqNe, hqInit, hqMax⟩ := hq
  have hLe : ∀ {a b : List UInt8}, a ≠ [] → (a.length = 1 ∨ IsInitial a) → a <+: bs →
      (∀ r, r <+: bs → IsInitial r → r.length ≤ b.length) → b ≠ [] → a.length ≤ b.length := by
    intro a b ha haInit haPre hbMax hb
    rcases haInit with hOne | hInit
    · have := List.length_pos_iff.mpr hb
      omega
    · exact hbMax a haPre hInit
  have hLength : p.length = q.length :=
    Nat.le_antisymm (hLe hpNe hpInit hpPre hqMax hqNe) (hLe hqNe hqInit hqPre hpMax hpNe)
  rw [List.prefix_iff_eq_take.mp hpPre, List.prefix_iff_eq_take.mp hqPre, hLength]

/-! ## What a lead byte admits -/

/-- Bytes that stay within the bounds of a pending state: the first in `[lower, upper]`, the
others continuation bytes. -/
def Fits (lower upper : UInt8) : List UInt8 → Prop
  | [] => True
  | b :: bs => lower ≤ b ∧ b ≤ upper ∧ ∀ x ∈ bs, IsTail x

/-- Within the bounds `80`–`BF`, fitting is being continuation bytes. -/
theorem fits_tails (bs : List UInt8) : Fits 0x80 0xBF bs ↔ ∀ x ∈ bs, IsTail x := by
  cases bs with
  | nil => simp [Fits]
  | cons b bs => simp [Fits, IsTail, and_assoc]

/-- After the first byte, the bounds are those of continuation bytes, as in the decoder. -/
theorem fits_cons {lower upper : UInt8} (b : UInt8) (bs : List UInt8) :
    Fits lower upper (b :: bs) ↔ (lower ≤ b ∧ b ≤ upper) ∧ Fits 0x80 0xBF bs := by
  rw [fits_tails, Fits, and_assoc]

theorem Fits.of_prefix {lower upper : UInt8} {ts us : List UInt8} (h : Fits lower upper us)
    (hPre : ts <+: us) : Fits lower upper ts := by
  obtain ⟨more, rfl⟩ := hPre
  cases ts with
  | nil => trivial
  | cons b ts =>
    obtain ⟨h1, h2, h3⟩ := h
    exact ⟨h1, h2, fun x hx => h3 x (List.mem_append_left more hx)⟩

/-- A fitting start goes on fitting with continuation bytes. -/
theorem Fits.append_tails {lower upper : UInt8} {ts : List UInt8} (h : Fits lower upper ts)
    (hNe : ts ≠ []) {more : List UInt8} (hMore : ∀ x ∈ more, IsTail x) :
    Fits lower upper (ts ++ more) := by
  cases ts with
  | nil => exact absurd rfl hNe
  | cons b ts =>
    obtain ⟨h1, h2, h3⟩ := h
    refine ⟨h1, h2, fun x hx => ?_⟩
    rcases List.mem_append.mp hx with hx | hx
    · exact h3 x hx
    · exact hMore x hx

/-- The pending state a lead byte begins, row by row of Table 3-7: the number of continuation
bytes and the bounds of the first. -/
theorem start_begin {a : UInt8} {p : Pending} (h : start a = .begin p) :
    0xC2 ≤ a.toNat ∧ a.toNat ≤ 0xF4 ∧
      p.need = (if a.toNat ≤ 0xDF then 1 else if a.toNat ≤ 0xEF then 2 else 3) ∧
      p.lower.toNat = (if a.toNat = 0xE0 then 0xA0 else if a.toNat = 0xF0 then 0x90 else 0x80) ∧
      p.upper.toNat = (if a.toNat = 0xED then 0x9F else if a.toNat = 0xF4 then 0x8F else 0xBF) := by
  have hLt := UInt8.toNat_lt a
  by_cases h1 : a.toNat ≤ 0x7F
  · rw [start_one h1] at h
    cases h
  by_cases h2 : a.toNat < 0xC2 ∨ 0xF4 < a.toNat
  · rw [start_other (by omega) h2] at h
    cases h
  by_cases h3 : a.toNat ≤ 0xDF
  · rw [start_two (by omega) h3] at h
    cases h
    refine ⟨by omega, by omega, ?_, ?_, ?_⟩ <;> split_ifs <;> simp <;> omega
  by_cases h4 : a.toNat ≤ 0xEF
  · obtain ⟨lo, hi, hStart, hLo, hHi⟩ := start_three (by omega) h4
    rw [hStart] at h
    cases h
    refine ⟨by omega, by omega, ?_, ?_, ?_⟩ <;> simp only [hLo, hHi] <;> split_ifs <;> omega
  · obtain ⟨lo, hi, hStart, hLo, hHi⟩ := start_four (b := a) (by omega) (by omega)
    rw [hStart] at h
    cases h
    refine ⟨by omega, by omega, ?_, ?_, ?_⟩ <;> simp only [hLo, hHi] <;> split_ifs <;> omega

theorem Sequence.ne_nil {s : List UInt8} (h : Sequence s) : s ≠ [] := by
  cases h <;> simp

/-- A sequence at the start of `a :: r` is `a` followed by a start of `r`. -/
theorem Sequence.cons_of_prefix {s r : List UInt8} {a : UInt8} (hs : Sequence s)
    (hPre : s <+: a :: r) : ∃ us, s = a :: us ∧ us <+: r := by
  obtain ⟨a', us, rfl⟩ := List.exists_cons_of_ne_nil hs.ne_nil
  obtain ⟨rfl, hTail⟩ := List.cons_prefix_cons.mp hPre
  exact ⟨us, rfl, hTail⟩

/-- An initial part that starts with `a` is a proper start of a sequence that starts with `a`. -/
theorem IsInitial.cons {a : UInt8} {vs : List UInt8} (h : IsInitial (a :: vs)) :
    ∃ us, Sequence (a :: us) ∧ vs <+: us ∧ vs ≠ us := by
  obtain ⟨s, hs, hPre, hNe⟩ := h
  obtain ⟨a', us, rfl⟩ := List.exists_cons_of_ne_nil hs.ne_nil
  obtain ⟨rfl, hTail⟩ := List.cons_prefix_cons.mp hPre
  exact ⟨us, hs, hTail, fun hEq => hNe (by rw [hEq])⟩

/-- The first byte of every sequence is ASCII, alone, or a lead byte `C2`–`F4`. -/
theorem sequence_cons_cases {a : UInt8} {us : List UInt8} (h : Sequence (a :: us)) :
    (a.toNat ≤ 0x7F ∧ us = []) ∨ (0xC2 ≤ a.toNat ∧ a.toNat ≤ 0xF4) := by
  generalize hs : a :: us = s at h
  cases h <;> simp only [List.cons.injEq] at hs <;> obtain ⟨rfl, rfl⟩ := hs <;>
    simp_all [UInt8.le_iff_toNat_le] <;> omega

private theorem sequence_cons_fits {a : UInt8} {p : Pending} (h : start a = .begin p)
    {us : List UInt8} (hSeq : Sequence (a :: us)) :
    Fits p.lower p.upper us ∧ us.length = p.need := by
  obtain ⟨hLead1, hLead2, hNeed, hLower, hUpper⟩ := start_begin h
  -- each row of the grammar against the bounds the lead byte sets
  generalize hs : a :: us = s at hSeq
  cases hSeq <;> simp only [List.cons.injEq] at hs <;> obtain ⟨rfl, rfl⟩ := hs <;>
    simp only [Fits, List.forall_mem_cons, List.length_cons, List.length_nil, IsTail,
      UInt8.le_iff_toNat_le, hLower, hUpper, hNeed] <;>
    simp only [IsTail, UInt8.le_iff_toNat_le, UInt8.reduceToNat, List.not_mem_nil,
      false_imp_iff, implies_true, and_true] at * <;> split_ifs <;> omega

private theorem sequence_of_fits {a : UInt8} {p : Pending} (h : start a = .begin p)
    {us : List UInt8} (hFits : Fits p.lower p.upper us) (hLength : us.length = p.need) :
    Sequence (a :: us) := by
  obtain ⟨hLead1, hLead2, hNeed, hLower, hUpper⟩ := start_begin h
  have hLe : ∀ {x y : UInt8}, x.toNat ≤ y.toNat → x ≤ y := UInt8.le_iff_toNat_le.mpr
  have hTail : ∀ {x : UInt8}, 0x80 ≤ x.toNat ∧ x.toNat ≤ 0xBF → IsTail x :=
    fun h => ⟨hLe h.1, hLe h.2⟩
  rcases us with _ | ⟨b, _ | ⟨c, _ | ⟨d, _ | ⟨e, us⟩⟩⟩⟩ <;>
    simp only [Fits, List.forall_mem_cons, IsTail, UInt8.le_iff_toNat_le, hLower, hUpper,
      UInt8.reduceToNat, List.length_cons, List.length_nil, hNeed, List.not_mem_nil,
      false_imp_iff, implies_true, and_true] at hFits hLength
  · split_ifs at hLength
  · -- a two-byte lead
    obtain ⟨hb1, hb2⟩ := hFits
    have ha : a.toNat ≤ 0xDF := by split_ifs at hLength <;> omega
    rw [if_neg (by omega), if_neg (by omega)] at hb1 hb2
    exact .two (hLe (by simp; omega)) (hLe (by simp; omega)) (hTail ⟨hb1, hb2⟩)
  · -- a three-byte lead, the second byte bounded after `E0` and `ED`
    obtain ⟨hb1, hb2, hc⟩ := hFits
    have ha : 0xE0 ≤ a.toNat ∧ a.toNat ≤ 0xEF := by split_ifs at hLength <;> omega
    by_cases hE0 : a.toNat = 0xE0
    · obtain rfl : a = 0xE0 := UInt8.toNat_inj.mp hE0
      simp only [UInt8.reduceToNat, Nat.reduceEqDiff, ↓reduceIte] at hb1 hb2
      exact .threeE0 (hLe (by simp; omega)) (hLe (by simp; omega)) (hTail hc)
    by_cases hED : a.toNat = 0xED
    · obtain rfl : a = 0xED := UInt8.toNat_inj.mp hED
      simp only [UInt8.reduceToNat, Nat.reduceEqDiff, ↓reduceIte] at hb1 hb2
      exact .threeED (hLe (by simp; omega)) (hLe (by simp; omega)) (hTail hc)
    rw [if_neg hE0, if_neg (by omega)] at hb1
    rw [if_neg hED, if_neg (by omega)] at hb2
    by_cases hEC : a.toNat ≤ 0xEC
    · exact .three (hLe (by simp; omega)) (hLe (by simp; omega)) (hTail ⟨hb1, hb2⟩) (hTail hc)
    · exact .threeEE (hLe (by simp; omega)) (hLe (by simp; omega)) (hTail ⟨hb1, hb2⟩) (hTail hc)
  · -- a four-byte lead, the second byte bounded after `F0` and `F4`
    obtain ⟨hb1, hb2, hc, hd⟩ := hFits
    have ha : 0xF0 ≤ a.toNat := by split_ifs at hLength <;> omega
    by_cases hF0 : a.toNat = 0xF0
    · obtain rfl : a = 0xF0 := UInt8.toNat_inj.mp hF0
      simp only [UInt8.reduceToNat, Nat.reduceEqDiff, ↓reduceIte] at hb1 hb2
      exact .fourF0 (hLe (by simp; omega)) (hLe (by simp; omega)) (hTail hc) (hTail hd)
    by_cases hF4 : a.toNat = 0xF4
    · obtain rfl : a = 0xF4 := UInt8.toNat_inj.mp hF4
      simp only [UInt8.reduceToNat, Nat.reduceEqDiff, ↓reduceIte] at hb1 hb2
      exact .fourF4 (hLe (by simp; omega)) (hLe (by simp; omega)) (hTail hc) (hTail hd)
    rw [if_neg (by omega), if_neg hF0] at hb1
    rw [if_neg (by omega), if_neg hF4] at hb2
    exact .four (hLe (by simp; omega)) (hLe (by simp; omega)) (hTail ⟨hb1, hb2⟩) (hTail hc)
      (hTail hd)
  · split_ifs at hLength <;> omega

/-- **Table 3-7 is the decoder's table**: the sequences that start with a lead byte are exactly
its continuations that stay within the bounds the lead byte sets and complete it. -/
theorem sequence_cons_iff {a : UInt8} {p : Pending} (h : start a = .begin p) (us : List UInt8) :
    Sequence (a :: us) ↔ Fits p.lower p.upper us ∧ us.length = p.need :=
  ⟨sequence_cons_fits h, fun ⟨hFits, hLength⟩ => sequence_of_fits h hFits hLength⟩

/-- The initial parts that start with a lead byte stay within its bounds and are short of
complete. -/
theorem IsInitial.fits {a : UInt8} {p : Pending} (h : start a = .begin p) {vs : List UInt8}
    (hInit : IsInitial (a :: vs)) : Fits p.lower p.upper vs ∧ vs.length < p.need := by
  obtain ⟨us, hs, hPre, hNe⟩ := hInit.cons
  obtain ⟨hFits, hLength⟩ := (sequence_cons_iff h us).mp hs
  have hShorter : vs.length ≠ us.length := fun hEq => hNe (hPre.eq_of_length hEq)
  exact ⟨hFits.of_prefix hPre, by have := hPre.length_le; omega⟩

/-- Conversely, a start that fits, of at least one continuation byte and short of complete, is
an initial part: continuation bytes `80` complete it. -/
theorem isInitial_of_fits {a : UInt8} {p : Pending} (h : start a = .begin p) {ts : List UInt8}
    (hNe : ts ≠ []) (hFits : Fits p.lower p.upper ts) (hShort : ts.length < p.need) :
    IsInitial (a :: ts) := by
  have hFill : ∀ x ∈ List.replicate (p.need - ts.length) (0x80 : UInt8), IsTail x := by
    intro x hx
    rw [List.eq_of_mem_replicate hx]
    exact ⟨by decide, by decide⟩
  refine ⟨a :: (ts ++ List.replicate (p.need - ts.length) 0x80), ?_, ?_, ?_⟩
  · exact (sequence_cons_iff h _).mpr ⟨hFits.append_tails hNe hFill, by simp; omega⟩
  · exact List.cons_prefix_cons.mpr ⟨rfl, List.prefix_append _ _⟩
  · intro hEq
    have := congrArg List.length hEq
    simp only [List.length_cons, List.length_append, List.length_replicate] at this
    omega

/-! ## The decoder, one chunk at a time -/

/-- The longest fitting start: when no byte after `ts` fits, no fitting start of `ts ++ rest` is
longer than `ts`. -/
theorem length_le_of_fits {lower upper : UInt8} {ts rest vs : List UInt8}
    (hStop : ∀ b rest', rest = b :: rest' → ¬ Fits lower upper (ts ++ [b]))
    (hPre : vs <+: ts ++ rest) (hFits : Fits lower upper vs) : vs.length ≤ ts.length := by
  by_contra hLonger
  obtain ⟨k, hk⟩ : ∃ k, vs.length = ts.length + (k + 1) := ⟨vs.length - ts.length - 1, by omega⟩
  have hTake := List.prefix_iff_eq_take.mp hPre
  rw [hk, List.take_append, List.take_of_length_le (by omega), Nat.add_sub_cancel_left]
    at hTake
  cases rest with
  | nil =>
    rw [List.take_nil, List.append_nil] at hTake
    rw [hTake] at hk
    omega
  | cons b rest' =>
    -- `ts` and the next byte are a fitting start of `vs`
    have hNext : ts ++ [b] <+: vs := by
      rw [hTake, List.take_succ_cons]
      exact ⟨rest'.take k, by simp⟩
    exact hStop b rest' rfl (hFits.of_prefix hNext)

/-- The longest start of `r` of at most `need` bytes that fits the bounds: either it has `need`
bytes, or the byte after it, if any, does not fit. -/
theorem exists_fits_split (lower upper : UInt8) (need : Nat) (r : List UInt8) :
    ∃ ts rest, r = ts ++ rest ∧ Fits lower upper ts ∧ ts.length ≤ need ∧
      (ts.length = need ∨ ∀ b rest', rest = b :: rest' → ¬ Fits lower upper (ts ++ [b])) := by
  induction r generalizing lower upper need with
  | nil => exact ⟨[], [], rfl, trivial, Nat.zero_le _, .inr (by simp)⟩
  | cons b r ih =>
    by_cases hNeed : need = 0
    · exact ⟨[], b :: r, rfl, trivial, Nat.zero_le _, .inl (by simp [hNeed])⟩
    by_cases hIn : lower ≤ b ∧ b ≤ upper
    · -- the first byte fits: the rest is split within the bounds of continuation bytes
      obtain ⟨ts, rest, rfl, hFits, hLength, hStop⟩ := ih 0x80 0xBF (need - 1)
      refine ⟨b :: ts, rest, rfl, (fits_cons b ts).mpr ⟨hIn, hFits⟩, by simp; omega, ?_⟩
      rcases hStop with hFull | hStop
      · exact .inl (by simp; omega)
      · refine .inr fun b' rest' hRest hFits' => hStop b' rest' hRest ?_
        rw [List.cons_append, fits_cons] at hFits'
        exact hFits'.2
    · refine ⟨[], b :: r, rfl, trivial, Nat.zero_le _, .inr fun b' rest' hRest hFits' => ?_⟩
      cases hRest
      exact hIn ⟨hFits'.1, hFits'.2.1⟩

/-- **A sequence cut short**: bytes that fit a pending state without completing it, followed by
a byte that does not fit or by the end of the input, decode to one `U+FFFD`, and the decoder
goes on from the initial state with that byte. -/
theorem decodeFrom_stuck {p : Pending} {ts rest : List UInt8} (hFits : Fits p.lower p.upper ts)
    (hShort : ts.length < p.need)
    (hStop : ∀ b rest', rest = b :: rest' → ¬ Fits p.lower p.upper (ts ++ [b])) :
    decodeFrom (some p) (ts ++ rest) = 0xFFFD :: decodeFrom none rest := by
  -- induction on the fitting bytes, each taking the decoder one state further
  induction ts generalizing p with
  | nil =>
    cases rest with
    | nil => simp [decodeFrom]
    | cons b rest' =>
      have hOut : ¬ (p.lower ≤ b ∧ b ≤ p.upper) := fun hIn => hStop b rest' rfl ⟨hIn.1, hIn.2, by simp⟩
      exact decodeFrom_reject hOut rest'
  | cons t ts ih =>
    obtain ⟨hIn, hTails⟩ := (fits_cons t ts).mp hFits
    simp only [List.length_cons] at hShort
    rw [List.cons_append, decodeFrom_continue hIn (by omega)]
    refine ih hTails (by simp only; omega) fun b rest' hRest hFits' => hStop b rest' hRest ?_
    rw [List.cons_append, fits_cons]
    exact ⟨hIn, hFits'⟩

/-- **One chunk of the decoder's reading.** The input starts either with the bytes of a scalar
value, which decode to it, or, where no sequence of the grammar starts, with its maximal
subpart, which decodes to one `U+FFFD`; either way the decoder goes on from the initial state
with what follows. -/
theorem decodeFrom_chunk (a : UInt8) (r : List UInt8) :
    (∃ c rest, IsScalar c ∧ a :: r = encodePoint c ++ rest ∧
      decodeFrom none (a :: r) = c :: decodeFrom none rest) ∨
    (∃ p rest, a :: r = p ++ rest ∧ (∀ s, Sequence s → ¬ s <+: a :: r) ∧
      IsMaximalSubpart p (a :: r) ∧ decodeFrom none (a :: r) = 0xFFFD :: decodeFrom none rest) := by
  have hLt := UInt8.toNat_lt a
  cases hStart : start a with
  | emit c =>
    by_cases hAscii : a.toNat ≤ 0x7F
    · -- an ASCII byte is its own scalar value
      rw [start_one hAscii] at hStart
      cases hStart
      refine .inl ⟨a.toNat, r, isScalar_of_start_emit (start_one hAscii), ?_,
        decodeFrom_emit (start_one hAscii) r⟩
      rw [encodePoint_one (by omega)]
      simp
    · -- a byte that starts nothing is its own maximal subpart
      have hOther : a.toNat < 0xC2 ∨ 0xF4 < a.toNat := by
        by_contra hLead
        have ⟨p, hp⟩ : ∃ p, start a = .begin p := by
          by_cases h3 : a.toNat ≤ 0xDF
          · exact ⟨_, start_two (by omega) h3⟩
          by_cases h4 : a.toNat ≤ 0xEF
          · obtain ⟨lo, hi, hp, -⟩ := start_three (by omega) h4
            exact ⟨_, hp⟩
          · obtain ⟨lo, hi, hp, -⟩ := start_four (b := a) (by omega) (by omega)
            exact ⟨_, hp⟩
        rw [hStart] at hp
        cases hp
      have hNoSeq : ∀ us, ¬ Sequence (a :: us) := fun us hSeq => by
        rcases sequence_cons_cases hSeq with h | h <;> omega
      have hNo : ∀ s, Sequence s → ¬ s <+: a :: r := by
        intro s hs hPre
        obtain ⟨us, rfl, -⟩ := hs.cons_of_prefix hPre
        exact hNoSeq us hs
      refine .inr ⟨[a], r, rfl, hNo, ⟨⟨r, rfl⟩, by simp, .inl rfl, fun q hq hInit => ?_⟩, ?_⟩
      · -- an initial part starting here would start a sequence here
        cases q with
        | nil => simp
        | cons a' vs =>
          obtain ⟨rfl, -⟩ := List.cons_prefix_cons.mp hq
          obtain ⟨us, hs, -⟩ := hInit.cons
          exact absurd hs (hNoSeq us)
      · rw [start_other (by omega) hOther] at hStart
        cases hStart
        exact decodeFrom_emit (start_other (by omega) hOther) r
  | begin p =>
    obtain ⟨ts, rest, rfl, hFits, hLength, hStop⟩ := exists_fits_split p.lower p.upper p.need r
    by_cases hFull : ts.length = p.need
    · -- the lead byte and the fitting bytes are a whole sequence
      obtain ⟨c, hc, hEnc⟩ :=
        exists_encodePoint_of_sequence ((sequence_cons_iff hStart ts).mpr ⟨hFits, hFull⟩)
      refine .inl ⟨c, rest, hc, by rw [← List.cons_append, hEnc], ?_⟩
      rw [← List.cons_append, ← hEnc, decodeFrom_encodePoint hc]
    · -- the sequence breaks after the fitting bytes: they and the lead byte are the subpart
      have hStop := hStop.resolve_left hFull
      have hShort : ts.length < p.need := by omega
      have hLongest : ∀ vs, a :: vs <+: a :: (ts ++ rest) → IsInitial (a :: vs) →
          vs.length ≤ ts.length := fun vs hPre hInit =>
        length_le_of_fits hStop (List.cons_prefix_cons.mp hPre).2 (hInit.fits hStart).1
      refine .inr ⟨a :: ts, rest, rfl, ?_, ⟨⟨rest, rfl⟩, by simp, ?_, ?_⟩, ?_⟩
      · intro s hs hPre
        obtain ⟨us, rfl, hTail⟩ := hs.cons_of_prefix hPre
        obtain ⟨hFits', hLength'⟩ := (sequence_cons_iff hStart us).mp hs
        have := length_le_of_fits hStop hTail hFits'
        omega
      · by_cases hNil : ts = []
        · exact .inl (by simp [hNil])
        · exact .inr (isInitial_of_fits hStart hNil hFits hShort)
      · intro q hPre hInit
        cases q with
        | nil => simp
        | cons a' vs =>
          obtain ⟨rfl, -⟩ := List.cons_prefix_cons.mp hPre
          simpa using hLongest vs hPre hInit
      · rw [decodeFrom_begin hStart, decodeFrom_stuck hFits hShort hStop]

/-! ## The decoder is the reference -/

theorem encodePoint_ne_nil {c : Nat} (hc : IsScalar c) : encodePoint c ≠ [] :=
  (sequence_encodePoint hc).ne_nil

/-- Every input has a reading by the reference, and it is the decoder's output. -/
theorem substitutes_decodeFrom (bs : List UInt8) : Substitutes bs (decodeFrom none bs) := by
  -- strong induction on the length: every chunk takes at least one byte
  induction hn : bs.length using Nat.strongRecOn generalizing bs with
  | ind n ih =>
    cases bs with
    | nil => simpa [decodeFrom] using Substitutes.nil
    | cons a r =>
      have hShorter : ∀ {p rest : List UInt8}, a :: r = p ++ rest → p ≠ [] →
          rest.length < n := fun hSplit hNe => by
        have := List.length_pos_iff.mpr hNe
        rw [← hn, hSplit, List.length_append]
        omega
      rcases decodeFrom_chunk a r with ⟨c, rest, hc, hSplit, hDecode⟩ |
        ⟨p, rest, hSplit, hNo, hMax, hDecode⟩
      · rw [hDecode, hSplit]
        exact .scalar hc (ih _ (hShorter hSplit (encodePoint_ne_nil hc)) rest rfl)
      · rw [hDecode, hSplit]
        rw [hSplit] at hNo hMax
        exact .subpart hNo hMax (ih _ (hShorter hSplit hMax.2.1) rest rfl)

/-- The reference determines the decoder's output: where it yields a scalar value the decoder
reads the same bytes, and where it substitutes a maximal subpart the decoder's chunk is that
subpart, maximal subparts being unique. -/
theorem decodeFrom_of_substitutes {bs : List UInt8} {cps : List Nat} (h : Substitutes bs cps) :
    decodeFrom none bs = cps := by
  induction h with
  | nil => simp [decodeFrom]
  | scalar hc _ ih => rw [decodeFrom_encodePoint hc, ih]
  | @subpart p rest out hNo hMax _ ih =>
    obtain ⟨a, p', rfl⟩ := List.exists_cons_of_ne_nil hMax.2.1
    rw [List.cons_append] at hNo hMax ⊢
    rcases decodeFrom_chunk a (p' ++ rest) with ⟨c, rest', hc, hSplit, -⟩ |
      ⟨q, rest', hSplit, -, hMax', hDecode⟩
    · -- the bytes of a scalar value would be a sequence starting here
      exact absurd ⟨rest', hSplit.symm⟩ (hNo _ (sequence_encodePoint hc))
    · obtain rfl := hMax'.unique hMax
      have hRest : rest' = rest := by
        rw [← List.cons_append] at hSplit
        exact (List.append_cancel_left hSplit).symm
      rw [hDecode, hRest, ih]

/-- **The decoder is the reference decoder**: the code points decoded from any bytes are exactly
those the substitution of maximal subparts yields. -/
theorem substitutes_iff (bs : List UInt8) (cps : List Nat) :
    Substitutes bs cps ↔ decodeFrom none bs = cps :=
  ⟨decodeFrom_of_substitutes, fun h => h ▸ substitutes_decodeFrom bs⟩

/-- The example of the Unicode Standard (Table 3-8): `F1 80 80` is cut short by `E1`, `E1 80` by
`C2`, `C2` by `62`, and the lone continuation bytes are a subpart each. -/
example : decodeFrom none [0x61, 0xF1, 0x80, 0x80, 0xE1, 0x80, 0xC2, 0x62, 0x80, 0x63, 0x80,
    0xBF, 0x64] = [0x61, 0xFFFD, 0xFFFD, 0xFFFD, 0x62, 0xFFFD, 0x63, 0xFFFD, 0xFFFD, 0x64] := by
  cbv

/-! ## ASCII is kept as it is -/

/-- A maximal subpart where no sequence starts has no byte below `80`: its first byte would be
a sequence of its own, and a longer one is a proper part of a sequence of two bytes or more. -/
theorem IsMaximalSubpart.filter_ascii {p bs : List UInt8} (hNo : ∀ s, Sequence s → ¬ s <+: bs)
    (hMax : IsMaximalSubpart p bs) : p.filter (· < 0x80) = [] := by
  obtain ⟨hPre, hNe, hInit, -⟩ := hMax
  rcases hInit with hOne | ⟨s, hs, hPart, hProper⟩
  · obtain ⟨a, rfl⟩ := List.length_eq_one_iff.mp hOne
    have hHigh : ¬ a < 0x80 := fun hLow =>
      hNo [a] (.ascii (UInt8.le_iff_toNat_le.mpr
        (by simp [UInt8.lt_iff_toNat_lt] at hLow ⊢; omega))) hPre
    simp [hHigh]
  · -- the sequence is longer than the nonempty part, so it encodes a value of `80` or more
    obtain ⟨c, hc, rfl⟩ := exists_encodePoint_of_sequence hs
    have hLonger : 1 < (encodePoint c).length := by
      have h1 := List.length_pos_iff.mpr hNe
      have h2 : p.length ≠ (encodePoint c).length := fun hEq => hProper (hPart.eq_of_length hEq)
      have := hPart.length_le
      omega
    have hc80 : 0x80 ≤ c := by
      by_contra hLow
      rw [encodePoint_one (by omega)] at hLonger
      simp at hLonger
    have hScalar : c ≤ 0x10FFFF := by unfold IsScalar at hc; omega
    exact List.prefix_nil.mp (filter_encodePoint hc80 hScalar ▸ hPart.filter _)

/-- What the reference yields below `U+0080` is, in order, the bytes below `80`. -/
theorem Substitutes.filter_ascii {bs : List UInt8} {cps : List Nat} (h : Substitutes bs cps) :
    cps.filter (· < 0x80) = (bs.filter (· < 0x80)).map UInt8.toNat := by
  induction h with
  | nil => rfl
  | @scalar c rest out hc _ ih =>
    rw [List.filter_append, List.map_append, ← ih]
    by_cases hLow : c < 0x80
    · have hByte : c.toUInt8.toNat = c := by simp; omega
      rw [encodePoint_one hLow]
      simp [hLow, UInt8.lt_iff_toNat_lt, hByte]
    · have hScalar : c ≤ 0x10FFFF := by unfold IsScalar at hc; omega
      rw [filter_encodePoint (by omega) hScalar]
      simp [hLow]
  | subpart hNo hMax _ ih =>
    rw [List.filter_append, List.map_append, ← ih, hMax.filter_ascii hNo]
    simp

/-- The UTF-16 units below `80` of a code point up to `10FFFF`: the code point itself when it
is below `80`, none otherwise (a surrogate pair is of `D800` and more). -/
theorem filter_unitsOf {c : Nat} (hc : c ≤ 0x10FFFF) :
    ((Text.unitsOf c).filter (· < 0x80)).map UInt16.toNat = if c < 0x80 then [c] else [] := by
  by_cases hBmp : c < 0x10000
  · have hUnit : c.toUInt16.toNat = c := by simp; omega
    simp only [Text.unitsOf, hBmp, if_true, List.filter_cons, List.filter_nil,
      UInt16.lt_iff_toNat_lt, hUnit, UInt16.reduceToNat]
    split_ifs <;> simp_all
  · simp only [Text.unitsOf, hBmp, if_false, List.filter_cons, List.filter_nil,
      UInt16.lt_iff_toNat_lt, UInt16.reduceToNat, Nat.toUInt16_eq, UInt16.toNat_ofNat',
      decide_eq_true_eq]
    rw [if_neg (by omega), if_neg (by omega), if_neg (by omega)]
    rfl

/-- The UTF-16 units below `80` of code points up to `10FFFF` are the code points below `80`. -/
theorem filter_flatMap_unitsOf {cs : List Nat} (hcs : ∀ c ∈ cs, c ≤ 0x10FFFF) :
    ((cs.flatMap Text.unitsOf).filter (· < 0x80)).map UInt16.toNat = cs.filter (· < 0x80) := by
  induction cs with
  | nil => rfl
  | cons c cs ih =>
    rw [List.flatMap_cons, List.filter_append, List.map_append,
      filter_unitsOf (hcs c (by simp)), ih fun c' hc' => hcs c' (by simp [hc'])]
    by_cases hLow : c < 0x80 <;> simp [hLow]

/-- **ASCII survives decoding**: the characters below `U+0080` of the decoded text are, in
order, exactly the bytes below `80`; no overlong or cut-short sequence creates, hides or
swallows one. -/
theorem ascii_decode (bs : List UInt8) :
    ((decode bs).units.filter (· < 0x80)).map UInt16.toNat =
      (bs.filter (· < 0x80)).map UInt8.toNat := by
  have hRange : ∀ c ∈ decodeFrom none bs, c ≤ 0x10FFFF := fun c hc => by
    have := isScalar_of_mem_decodeFrom none bs (by simp) c hc
    unfold IsScalar at this
    omega
  rw [← (substitutes_decodeFrom bs).filter_ascii, ← filter_flatMap_unitsOf hRange]
  rfl

/-! ## The byte order mark and the charset's name -/

/-- **A leading byte order mark is kept**: `EF BB BF` decodes to `U+FEFF`. -/
theorem decode_byteOrderMark (bs : List UInt8) :
    decode (0xEF :: 0xBB :: 0xBF :: bs) = ⟨0xFEFF :: (decode bs).units⟩ := by
  have hBytes : encodePoint 0xFEFF = [0xEF, 0xBB, 0xBF] := by decide
  have hScalar : IsScalar 0xFEFF := by unfold IsScalar; omega
  show Text.ofCodePoints (decodeFrom none ([0xEF, 0xBB, 0xBF] ++ bs)) = _
  rw [← hBytes, decodeFrom_encodePoint hScalar]
  rfl

/-- **UTF-8 decoding by maximal subparts.** The code points decoded from any bytes are exactly
those the substitution of maximal subparts yields (`Substitutes`: a sequence of Table 3-7 yields
its scalar value; where none starts, the longest initial part of one, at least a byte, yields one
`U+FFFD`), and the decoded text is the text of what the reference yields. A leading `EF BB BF`
yields `U+FEFF`. The characters below `U+0080` of the text are, in order, the bytes below `80`.
`getString` decodes so with the charset given as itself and by the name `UTF-8`. -/
theorem decode_maximal_subparts :
    (∀ bs cps, Substitutes bs cps ↔ decodeFrom none bs = cps) ∧
    (∀ bs cps, Substitutes bs cps → decode bs = Text.ofCodePoints cps) ∧
    (∀ bs, decode (0xEF :: 0xBB :: 0xBF :: bs) = ⟨0xFEFF :: (decode bs).units⟩) ∧
    (∀ bs, ((decode bs).units.filter (· < 0x80)).map UInt16.toNat =
      (bs.filter (· < 0x80)).map UInt8.toNat) ∧
    (∀ src : ByteSource,
      getString (some src) (some (.given (.builtin .utf8))) = .ok (decode src.toBytes) ∧
      getString (some src) (some (.named (.ofString "UTF-8"))) = .ok (decode src.toBytes)) := by
  refine ⟨substitutes_iff, fun bs cps h => ?_, decode_byteOrderMark, ascii_decode, fun src =>
    ⟨getString_of_resolveCharset (c := .builtin .utf8) rfl src,
      getString_of_resolveCharset (c := .builtin .utf8) rfl src⟩⟩
  rw [decode, decodeFrom_of_substitutes h]

end Transcode.Utf8
