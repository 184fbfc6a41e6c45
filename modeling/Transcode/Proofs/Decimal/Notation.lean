import Transcode.Decimal.Notation
import Transcode.Decimal.Numeric
import Transcode.Proofs.Decimal.Shortest
import Transcode.Proofs.Charset.Names

/-!
# Written decimals and what they read back as

`Decimal.Notation.standard.layout` places the digits of a decimal positionally or with an
exponent part. This module proves that every layout is a literal of the grammar `Decimal.read?`
accepts, made of visible ASCII characters, that it reads back as the very decimal it was made
from, also as the text of a number, and that the exponent part appears exactly outside
`-6 < n ≤ 21`.

## Main results

* `Decimal.Literal.read?_chars`: the literal `±whole.frac e±N` reads as `whole frac · 10 ^ (N - |frac|)`.
* `Decimal.layout_literal`: every layout is such a literal, denoting the decimal laid out.
* `Decimal.mem_layout_iff`: the exponent part appears exactly outside `-6 < n ≤ 21`.
* `Decimal.toNumber_layout`: a laid-out decimal, signed or not, converts back to itself.
-/

namespace Transcode

namespace Decimal

/-! ## Digit lists -/

theorem takeDigits_append {ds rest : List Char} (hds : ∀ c ∈ ds, c.isDigit = true)
    (hRest : ∀ c ∈ rest.head?, c.isDigit = false) : takeDigits (ds ++ rest) = (ds, rest) := by
  induction ds with
  | nil =>
    cases rest with
    | nil => rfl
    | cons c r => simp [takeDigits, hRest c (by simp)]
  | cons c ds ih =>
    simp [takeDigits, hds c (by simp), ih (fun c h => hds c (by simp [h]))]

theorem digitsValue_eq (ds : List Char) : digitsValue ds = Nat.ofDigitChars 10 ds 0 := by
  unfold digitsValue Nat.ofDigitChars
  congr 1
  funext acc c
  ring

theorem digitsValue_append (ds es : List Char) :
    digitsValue (ds ++ es) = digitsValue ds * 10 ^ es.length + digitsValue es := by
  rw [digitsValue_eq, digitsValue_eq, digitsValue_eq, Nat.ofDigitChars_append,
    Nat.ofDigitChars_eq_ofDigitChars_zero]
  ring

@[simp] theorem digitsValue_replicate_zero (j : ℕ) : digitsValue (List.replicate j '0') = 0 := by
  rw [digitsValue_eq, Nat.ofDigitChars_replicate_zero, Nat.mul_zero]

@[simp] theorem digitsValue_toString (a : ℕ) : digitsValue (toString a).toList = a := by
  rw [digitsValue_eq, Nat.toString_eq_repr, Nat.toList_repr, Nat.ofDigitChars_ten_toDigits]

theorem isDigit_of_mem_toString {a : ℕ} {c : Char} (h : c ∈ (toString a).toList) :
    c.isDigit = true := by
  rw [Nat.toString_eq_repr, Nat.toList_repr] at h
  exact Nat.isDigit_of_mem_toDigits (by norm_num) (by norm_num) h

/-- A number of `k` digits is written with `k` characters. -/
theorem length_toString_eq {a k : ℕ} (hk : 0 < k) (hLow : 10 ^ (k - 1) ≤ a) (hHigh : a < 10 ^ k) :
    (toString a).length = k := by
  rw [Nat.toString_eq_repr, ← String.length_toList, Nat.toList_repr]
  have hLe : (Nat.toDigits 10 a).length ≤ k := (Nat.length_toDigits_le_iff (by norm_num) hk).mpr hHigh
  rcases Nat.lt_or_ge 1 k with hTwo | hOne
  · have hGt : ¬(Nat.toDigits 10 a).length ≤ k - 1 := fun h =>
      absurd ((Nat.length_toDigits_le_iff (by norm_num) (by omega)).mp h) (not_lt.mpr hLow)
    omega
  · have hPos : 0 < (Nat.toDigits 10 a).length := Nat.length_toDigits_pos
    omega

/-- Trailing zeros are appended digits. -/
theorem toDigits_mul_pow_ten {a : ℕ} (ha : 0 < a) (j : ℕ) :
    Nat.toDigits 10 (a * 10 ^ j) = Nat.toDigits 10 a ++ List.replicate j '0' := by
  induction j with
  | zero => simp
  | succ j ih =>
    have hPos : 0 < a * 10 ^ j := by positivity
    have hShift := Nat.toDigits_append_toDigits (by norm_num : 1 < 10) hPos (by norm_num : 0 < 10)
    rw [Nat.toDigits_zero, ih] at hShift
    rw [List.replicate_succ', ← List.append_assoc, hShift]
    congr 1
    ring

end Decimal

namespace Binary64

/-- Trailing zeros of the digits move into the exponent. -/
theorem ofDecimal_mul_pow_ten (negative : Bool) {a : ℕ} (ha : 0 < a) (j : ℕ) :
    ofDecimal negative (a * 10 ^ j) 0 = ofDecimal negative a j := by
  have hLen : (toString (a * 10 ^ j)).length = (toString a).length + j := by
    simp only [Nat.toString_eq_repr, ← String.length_toList, Nat.toList_repr,
      Decimal.toDigits_mul_pow_ten ha, List.length_append, List.length_replicate]
  have hNe : a * 10 ^ j ≠ 0 := by positivity
  unfold ofDecimal
  simp only [hNe, ha.ne', if_false, hLen, Nat.pow_eq]
  push_cast
  simp

end Binary64

namespace Decimal

/-! ## Literals -/

/-- The exponent part `e+N` or `e-N` of a literal, if any. -/
def exponentChars : Option ℤ → List Char
  | none => []
  | some e => 'e' :: (if 0 ≤ e then '+' else '-') :: (toString e.natAbs).toList

/-- A decimal literal `whole[.frac][e±N]` without its sign: a nonempty run of digits, then a point
and a run of digits when `point` holds, then an optional exponent part. -/
structure Literal where
  whole : List Char
  frac : List Char
  point : Bool
  exp : Option ℤ
  whole_ne : whole ≠ []
  whole_digits : ∀ c ∈ whole, c.isDigit = true
  frac_digits : ∀ c ∈ frac, c.isDigit = true
  frac_of_point : point = false → frac = []

namespace Literal

/-- The characters of the literal. -/
def chars (l : Literal) : List Char :=
  l.whole ++ (if l.point then '.' :: l.frac else []) ++ exponentChars l.exp

/-- The number the literal denotes with the sign `negative`: `whole frac · 10 ^ (N - |frac|)`. -/
def value (l : Literal) (negative : Bool) : Binary64 :=
  Binary64.ofDecimal negative (digitsValue (l.whole ++ l.frac)) (l.exp.getD 0 - l.frac.length)

/-- **Reading a literal**: `±whole.frac e±N` reads as the decimal `whole frac · 10 ^ (N - |frac|)`. -/
theorem read?_chars (negative : Bool) (l : Literal) :
    read? ((if negative then ['-'] else []) ++ l.chars) = some (l.value negative) := by
  obtain ⟨whole, frac, point, exp, hWhole, hW, hF, hPoint⟩ := l
  simp only [chars, value]
  have hExpHead : ∀ c ∈ (exponentChars exp).head?, c.isDigit = false := by
    cases exp <;> simp [exponentChars]
  -- the digits before the point, after it, and of the exponent are each taken whole
  have hTakeWhole : takeDigits (whole ++ ((if point then '.' :: frac else []) ++ exponentChars exp)) =
      (whole, (if point then '.' :: frac else []) ++ exponentChars exp) := by
    apply takeDigits_append hW
    cases point
    · simpa using hExpHead
    · simp
  have hTakeFrac : takeDigits (frac ++ exponentChars exp) = (frac, exponentChars exp) :=
    takeDigits_append hF hExpHead
  have hExp : ∀ e : ℤ, takeDigits (toString e.natAbs).toList = ((toString e.natAbs).toList, []) := by
    intro e
    simpa using @takeDigits_append (toString e.natAbs).toList [] (fun c h => isDigit_of_mem_toString h)
      (by simp)
  rw [List.append_assoc]
  obtain ⟨c, cs, rfl⟩ := List.exists_cons_of_ne_nil hWhole
  have hc : c.isDigit = true := hW c (by simp)
  unfold read?
  split
  rename_i eneg body hSign
  -- the sign: a leading digit is neither `-` nor `+`
  have hBody : eneg = negative ∧
      body = c :: cs ++ ((if point then '.' :: frac else []) ++ exponentChars exp) := by
    cases negative
    · simp only [Bool.false_eq_true, if_false, List.nil_append, List.cons_append] at hSign
      split at hSign
      · rename_i hEq
        simp only [List.cons.injEq] at hEq
        simp [hEq.1] at hc
      · rename_i hEq
        simp only [List.cons.injEq] at hEq
        simp [hEq.1] at hc
      · simp only [Prod.mk.injEq] at hSign
        exact ⟨hSign.1.symm, by rw [← hSign.2]; rfl⟩
    · simp only [if_true, List.singleton_append, Prod.mk.injEq] at hSign
      exact ⟨hSign.1.symm, hSign.2.symm⟩
  obtain ⟨rfl, rfl⟩ := hBody
  rcases exp with _ | e
  · cases point <;> simp_all [exponentChars]
  · have hVal : digitsValue (Nat.toDigits 10 e.natAbs) = e.natAbs := by
      simpa using digitsValue_toString e.natAbs
    by_cases he : 0 ≤ e
    · cases point <;> simp_all [exponentChars] <;> rw [abs_of_nonneg he]
    · have hNeg : e < 0 := by omega
      simp only [exponentChars, if_neg he] at hTakeWhole hTakeFrac ⊢
      cases point <;> simp_all <;> rw [abs_of_neg hNeg, neg_neg]

end Literal

/-! ## Layouts -/

section Layout

variable {d : Digits}

theorem isDigit_append_zeros {ds : List Char} (hds : ∀ c ∈ ds, c.isDigit = true) (j : ℕ) :
    (∀ c ∈ ds ++ List.replicate j '0', c.isDigit = true) ∧
      ∀ c ∈ List.replicate j '0' ++ ds, c.isDigit = true := by
  have hZero : ∀ c ∈ List.replicate j '0', c.isDigit = true := by
    intro c hc
    rw [List.eq_of_mem_replicate hc]
    rfl
  constructor
  · intro c hc
    rcases List.mem_append.mp hc with h | h
    · exact hds c h
    · exact hZero c h
  · intro c hc
    rcases List.mem_append.mp hc with h | h
    · exact hZero c h
    · exact hds c h

/-- **Every layout is a literal** of the digits of `d`, followed or preceded by zeros, with an
exponent part exactly outside `-6 < n ≤ 21`, and denoting the decimal `d` itself. -/
theorem layout_literal (hPos : 0 < d.digits) (hLen : (toString d.digits).length = d.count) :
    ∃ l : Literal, (Notation.standard.layout d).toList = l.chars ∧
      (l.exp = none ↔ -6 < d.exponent ∧ d.exponent ≤ 21) ∧
      ∀ negative, l.value negative = Binary64.ofDecimal negative d.digits (d.exponent - d.count) := by
  unfold Notation.layout
  simp only [Notation.standard, if_true]
  set s := (toString d.digits).toList with hs
  have hsLen : s.length = d.count := by rw [hs, String.length_toList, hLen]
  have hsDigits : ∀ c ∈ s, c.isDigit = true := fun c h => isDigit_of_mem_toString h
  have hsVal : digitsValue s = d.digits := digitsValue_toString _
  have hsNe : s ≠ [] := by
    rw [hs, Nat.toString_eq_repr, Nat.toList_repr]
    exact Nat.toDigits_ne_nil
  have hCount : 0 < d.count := hsLen ▸ List.length_pos_of_ne_nil hsNe
  by_cases hFixed : (d.count : ℤ) ≤ d.exponent ∧ d.exponent ≤ 21
  · -- `digits` and `n - k` zeros
    rw [if_pos hFixed]
    refine ⟨⟨s ++ List.replicate (d.exponent - d.count).toNat '0', [], false, none, by simp [hsNe],
      (isDigit_append_zeros hsDigits _).1, by simp, fun _ => rfl⟩,
      by simp [Literal.chars, zeros, exponentChars], iff_of_true rfl (by omega), fun negative => ?_⟩
    simp only [Literal.value]
    rw [List.append_nil, digitsValue_append, hsVal, digitsValue_replicate_zero, List.length_replicate,
      Nat.add_zero]
    have hShift := Binary64.ofDecimal_mul_pow_ten negative hPos (d.exponent - d.count).toNat
    simp only [Option.getD_none, List.length_nil, Nat.cast_zero, sub_zero]
    rw [hShift, Int.toNat_of_nonneg (by omega)]
  rw [if_neg hFixed]
  by_cases hInside : 0 < d.exponent ∧ d.exponent ≤ 21
  · -- the point inside the digits
    rw [if_pos hInside]
    refine ⟨⟨s.take d.exponent.toNat, s.drop d.exponent.toNat, true, none, by simp [hsNe]; omega,
      fun c h => hsDigits c (List.mem_of_mem_take h), fun c h => hsDigits c (List.mem_of_mem_drop h),
      by simp⟩, by simp [Literal.chars, exponentChars], iff_of_true rfl (by omega), fun negative => ?_⟩
    simp only [Literal.value]
    rw [List.take_append_drop, hsVal, List.length_drop, hsLen]
    simp only [Option.getD_none]
    rw [show (0 : ℤ) - ((d.count - d.exponent.toNat : ℕ) : ℤ) = d.exponent - d.count by omega]
  rw [if_neg hInside]
  by_cases hSmall : -6 < d.exponent ∧ d.exponent ≤ 0
  · -- `0.`, `-n` zeros and the digits
    rw [if_pos hSmall]
    refine ⟨⟨['0'], List.replicate (-d.exponent).toNat '0' ++ s, true, none, by simp, by simp,
      (isDigit_append_zeros hsDigits _).2, by simp⟩, by simp [Literal.chars, zeros, exponentChars],
      iff_of_true rfl (by omega), fun negative => ?_⟩
    have hZero : digitsValue ['0'] = 0 := rfl
    have hVal : digitsValue (['0'] ++ (List.replicate (-d.exponent).toNat '0' ++ s)) = d.digits := by
      simp only [digitsValue_append, hsVal, digitsValue_replicate_zero, hZero, Nat.zero_mul,
        Nat.zero_add]
    simp only [Literal.value]
    rw [hVal]
    simp only [Option.getD_none, List.length_append, List.length_replicate, hsLen]
    refine congrArg (Binary64.ofDecimal negative d.digits) ?_
    omega
  · -- an exponent part
    rw [if_neg hSmall]
    have hOutside : ¬(-6 < d.exponent ∧ d.exponent ≤ 21) := by omega
    have hExpSign : (if 0 ≤ d.exponent - 1 then "+" else "-").toList ++
        (toString (d.exponent - 1).natAbs).toList =
        (if 0 ≤ d.exponent - 1 then '+' else '-') :: (toString (d.exponent - 1).natAbs).toList := by
      by_cases hSign : 0 ≤ d.exponent - 1
      · rw [if_pos hSign, if_pos hSign]
        simp
      · rw [if_neg hSign, if_neg hSign]
        simp
    by_cases hOne : d.count = 1
    · rw [if_pos hOne]
      refine ⟨⟨s, [], false, some (d.exponent - 1), hsNe, hsDigits, by simp, fun _ => rfl⟩, ?_,
        iff_of_false (by simp) hOutside, fun negative => ?_⟩
      · simp only [String.toList_append, String.toList_ofList, List.append_assoc, hExpSign]
        simp [Literal.chars, exponentChars]
      simp only [Literal.value, List.append_nil, hsVal, Option.getD_some, List.length_nil,
        Nat.cast_zero, sub_zero]
      refine congrArg (Binary64.ofDecimal negative d.digits) ?_
      omega
    · rw [if_neg hOne]
      refine ⟨⟨s.take 1, s.drop 1, true, some (d.exponent - 1), by simp [hsNe],
        fun c h => hsDigits c (List.mem_of_mem_take h), fun c h => hsDigits c (List.mem_of_mem_drop h),
        by simp⟩, ?_, iff_of_false (by simp) hOutside, fun negative => ?_⟩
      · simp only [String.toList_append, String.toList_ofList, List.append_assoc, hExpSign]
        simp [Literal.chars, exponentChars]
      simp only [Literal.value]
      rw [List.take_append_drop, hsVal, List.length_drop, hsLen]
      simp only [Option.getD_some]
      refine congrArg (Binary64.ofDecimal negative d.digits) ?_
      omega

theorem sign_toList (negative : Bool) :
    (if negative then "-" else "").toList = if negative then ['-'] else [] := by
  cases negative <;> rfl

/-- **A laid-out decimal reads back as itself.** -/
theorem read?_layout (negative : Bool) (hPos : 0 < d.digits)
    (hLen : (toString d.digits).length = d.count) :
    read? ((if negative then "-" else "") ++ Notation.standard.layout d).toList =
      some (Binary64.ofDecimal negative d.digits (d.exponent - d.count)) := by
  obtain ⟨l, hList, -, hValue⟩ := layout_literal hPos hLen
  rw [String.toList_append, sign_toList, hList, l.read?_chars negative, hValue]

/-- **The exponent part appears exactly outside `-6 < n ≤ 21`.** -/
theorem mem_layout_iff (hPos : 0 < d.digits) (hLen : (toString d.digits).length = d.count) :
    'e' ∈ (Notation.standard.layout d).toList ↔ ¬(-6 < d.exponent ∧ d.exponent ≤ 21) := by
  obtain ⟨l, hList, hExp, -⟩ := layout_literal hPos hLen
  obtain ⟨whole, frac, point, exp, _, hWhole, hFrac, _⟩ := l
  have hNotDigit : ∀ l : List Char, (∀ c ∈ l, c.isDigit = true) → 'e' ∉ l := fun l hl he =>
    absurd (hl 'e' he) (by decide)
  rw [hList, ← hExp]
  simp only [Literal.chars, List.mem_append]
  constructor
  · rintro ((h | h) | h)
    · exact absurd h (hNotDigit whole hWhole)
    · cases point
      · simp at h
      · rcases List.mem_cons.mp h with h | h
        · exact absurd h (by decide)
        · exact absurd h (hNotDigit frac hFrac)
    · rintro rfl
      simp [exponentChars] at h
  · intro h
    cases exp with
    | none => exact absurd rfl h
    | some e => exact .inr (by simp [exponentChars])

end Layout

/-! ## Visible characters -/

/-- Digits are visible ASCII characters. -/
theorem visible_of_isDigit {c : Char} (h : c.isDigit = true) : 33 ≤ c.toNat ∧ c.toNat < 128 := by
  simp only [Char.isDigit, Bool.and_eq_true, decide_eq_true_eq] at h
  have hLow : 48 ≤ c.toNat := h.1
  have hHigh : c.toNat ≤ 57 := h.2
  omega

theorem visible_exponentChars (exp : Option ℤ) :
    ∀ c ∈ exponentChars exp, 33 ≤ c.toNat ∧ c.toNat < 128 := by
  intro c hc
  cases exp with
  | none => simp [exponentChars] at hc
  | some e =>
    simp only [exponentChars, List.mem_cons] at hc
    rcases hc with rfl | rfl | h
    · decide
    · split <;> decide
    · exact visible_of_isDigit (isDigit_of_mem_toString h)

/-- Every character of a literal and its sign is visible ASCII: a sign, a digit, the point or the
exponent mark. -/
theorem Literal.visible_chars (negative : Bool) (l : Literal) :
    ∀ c ∈ (if negative then ['-'] else []) ++ l.chars, 33 ≤ c.toNat ∧ c.toNat < 128 := by
  intro c hc
  simp only [Literal.chars, List.mem_append] at hc
  rcases hc with hSign | (hWhole | hPoint) | hExp
  · cases negative
    · simp at hSign
    · simp only [if_pos, List.mem_singleton] at hSign
      subst hSign
      decide
  · exact visible_of_isDigit (l.whole_digits c hWhole)
  · split at hPoint
    · rcases List.mem_cons.mp hPoint with rfl | h
      · decide
      · exact visible_of_isDigit (l.frac_digits c h)
    · simp at hPoint
  · exact visible_exponentChars l.exp c hExp

/-! ## Numerals -/

/-- A text that starts with a digit or a minus sign, followed by a digit, a point or an exponent
mark, is a decimal literal to `numeral?`, not a radix integer nor an infinity. -/
theorem numeral?_eq_read? {c : Char} {rest : List Char} (hc : c.isDigit = true ∨ c = '-')
    (hRest : ∀ b ∈ rest.head?, b.isDigit = true ∨ b = '.' ∨ b = 'e')
    (hMinus : c = '-' → ∀ b ∈ rest.head?, b.isDigit = true) :
    numeral? (c :: rest) = read? (c :: rest) := by
  have hNotRadix : ∀ b ∈ rest.head?, (b = 'x' || b = 'X') = false ∧ (b = 'o' || b = 'O') = false ∧
      (b = 'b' || b = 'B') = false := by
    intro b hb
    rcases hRest b hb with h | h | h
    · refine ⟨?_, ?_, ?_⟩ <;> (simp only [Bool.or_eq_false_iff, decide_eq_false_iff_not]; constructor) <;>
        (rintro rfl; exact absurd h (by decide))
    · subst h
      decide
    · subst h
      decide
  unfold numeral?
  split
  · rename_i hNil
    exact absurd hNil (List.cons_ne_nil _ _)
  · rename_i b rest' hEq
    simp only [List.cons.injEq] at hEq
    obtain ⟨rfl, rfl⟩ := hEq
    obtain ⟨hx, ho, hb⟩ := hNotRadix b rfl
    simp only [hx, ho, hb, Bool.false_eq_true, if_false]
  · -- no word starts with a digit, and `-Infinity` has a letter after its sign
    have hInf : c :: rest ≠ "Infinity".toList := by
      intro hEq
      simp at hEq
      rcases hc with h | h <;> simp [hEq.1] at h
    have hPlus : c :: rest ≠ "+Infinity".toList := by
      intro hEq
      simp at hEq
      rcases hc with h | h <;> simp [hEq.1] at h
    have hNeg : c :: rest ≠ "-Infinity".toList := by
      intro hEq
      simp at hEq
      have hI := hMinus hEq.1 'I' (by rw [hEq.2]; rfl)
      exact absurd hI (by decide)
    simp only [hInf, hPlus, hNeg, decide_false, Bool.or_false, Bool.false_eq_true, if_false]

/-- A signed literal is read as a decimal literal, not as a radix integer nor an infinity. -/
theorem Literal.numeral?_chars (negative : Bool) (l : Literal) :
    numeral? ((if negative then ['-'] else []) ++ l.chars) =
      read? ((if negative then ['-'] else []) ++ l.chars) := by
  obtain ⟨whole, frac, point, exp, hWhole, hW, _, _⟩ := l
  simp only [Literal.chars]
  obtain ⟨w, ws, rfl⟩ := List.exists_cons_of_ne_nil hWhole
  have hw : w.isDigit = true := hW w List.mem_cons_self
  have hFirst : ∀ b ∈ (w :: (ws ++ (if point then '.' :: frac else []) ++ exponentChars exp)).head?,
      b.isDigit = true := by
    intro b hb
    simp only [List.head?_cons, Option.mem_def, Option.some.injEq] at hb
    exact hb ▸ hw
  cases negative with
  | true =>
    simp only [if_pos, List.cons_append, List.nil_append]
    exact numeral?_eq_read? (.inr rfl) (fun b hb => .inl (hFirst b hb)) fun _ => hFirst
  | false =>
    simp only [Bool.false_eq_true, if_false, List.nil_append, List.cons_append]
    -- after the first digit come more digits, the point, the exponent mark or nothing
    refine numeral?_eq_read? (.inl hw) (fun b hb => ?_) fun h => absurd (h ▸ hw) (by decide)
    cases ws with
    | cons v vs =>
      simp only [List.cons_append, List.head?_cons, Option.mem_def, Option.some.injEq] at hb
      exact .inl (hb ▸ hW v (List.mem_cons_of_mem _ List.mem_cons_self))
    | nil =>
      cases point with
      | true =>
        simp only [if_pos, List.nil_append, List.cons_append, List.head?_cons, Option.mem_def,
          Option.some.injEq] at hb
        exact .inr (.inl hb.symm)
      | false =>
        cases exp with
        | none => simp [exponentChars] at hb
        | some e =>
          simp only [exponentChars, Bool.false_eq_true, if_false, List.append_nil, List.nil_append,
            List.head?_cons, Option.mem_def, Option.some.injEq] at hb
          exact .inr (.inr hb.symm)

end Decimal

namespace Text

/-- No visible ASCII character is blank. -/
theorem isBlank_of_visible {n : ℕ} (hLow : 33 ≤ n) (hHigh : n < 128) : isBlank n.toUInt16 = false := by
  have hn : n.toUInt16.toNat = n := by
    simp
    omega
  simp only [isBlank, Bool.or_eq_false_iff, Bool.and_eq_false_iff, decide_eq_false_iff_not,
    ← UInt16.toNat_inj, UInt16.le_iff_toNat_le, hn]
  simp
  omega

/-- An ASCII text with no blank at either end converts as its characters do. -/
theorem toNumber_ofString {s : String} (hAscii : ∀ c ∈ s.toList, c.toNat < 128)
    (hHead : ∀ c ∈ s.toList.head?, isBlank c.toNat.toUInt16 = false)
    (hLast : ∀ c ∈ s.toList.getLast?, isBlank c.toNat.toUInt16 = false) :
    (ofString s).toNumber = (Decimal.numeral? s.toList).getD .nan := by
  have hUnits : (ofString s).units = s.toList.map fun c => c.toNat.toUInt16 := by
    rw [ofString, ofCodePoints, flatMap_unitsOf_of_lt fun c hc => ?_, List.map_map]
    · rfl
    · obtain ⟨c', hc', rfl⟩ := List.mem_map.mp hc
      have := hAscii c' hc'
      omega
  have hTrim : (ofString s).trim = ofString s := by
    have hHeadUnit : ∀ u ∈ (ofString s).units.head?, isBlank u = false := by
      intro u hu
      rw [hUnits, List.head?_map] at hu
      obtain ⟨c, hc, rfl⟩ := Option.mem_map.mp hu
      exact hHead c hc
    have hLastUnit : ∀ u ∈ (ofString s).units.getLast?, isBlank u = false := by
      intro u hu
      rw [hUnits, List.getLast?_map] at hu
      obtain ⟨c, hc, rfl⟩ := Option.mem_map.mp hu
      exact hLast c hc
    simpa using @trim_eq_of_blanks [] (ofString s).units [] (by simp) (by simp) hHeadUnit hLastUnit
  have hRound : ∀ c ∈ s.toList, Char.ofNat c.toNat.toUInt16.toNat = c := by
    intro c hc
    have hLt := hAscii c hc
    have hSmall : c.toNat.toUInt16.toNat = c.toNat := by
      simp
      omega
    rw [hSmall, Char.ofNat_toNat]
  have hAll : ((ofString s).units.all fun u => u < 128) = true := by
    rw [hUnits, List.all_map, List.all_eq_true]
    intro c hc
    have hLt := hAscii c hc
    simp only [Function.comp, decide_eq_true_eq]
    rw [UInt16.lt_iff_toNat_lt]
    simp
    omega
  unfold toNumber
  rw [hTrim, if_pos hAll, hUnits, List.map_map]
  congr 2
  calc s.toList.map ((fun u => Char.ofNat u.toNat) ∘ fun c => c.toNat.toUInt16)
      = s.toList.map id := List.map_congr_left fun c hc => hRound c hc
    _ = s.toList := List.map_id _

end Text

namespace Decimal

/-- **A laid-out decimal converts back to itself** as the text of a number. -/
theorem toNumber_layout {d : Digits} (negative : Bool) (hPos : 0 < d.digits)
    (hLen : (toString d.digits).length = d.count) :
    (Text.ofString ((if negative then "-" else "") ++ Notation.standard.layout d)).toNumber =
      Binary64.ofDecimal negative d.digits (d.exponent - d.count) := by
  obtain ⟨l, hList, -, -⟩ := layout_literal hPos hLen
  have hChars : ((if negative then "-" else "") ++ Notation.standard.layout d).toList =
      (if negative then ['-'] else []) ++ l.chars := by
    rw [String.toList_append, sign_toList, hList]
  have hVisible := l.visible_chars negative
  rw [← hChars] at hVisible
  have hBlank : ∀ c ∈ ((if negative then "-" else "") ++ Notation.standard.layout d).toList,
      Text.isBlank c.toNat.toUInt16 = false := fun c hc =>
    Text.isBlank_of_visible (hVisible c hc).1 (hVisible c hc).2
  rw [Text.toNumber_ofString (fun c hc => (hVisible c hc).2)
      (fun c hc => hBlank c (List.mem_of_mem_head? hc)) (fun c hc => hBlank c (List.mem_of_mem_getLast? hc)),
    hChars, l.numeral?_chars negative, ← hChars, read?_layout negative hPos hLen]
  rfl

end Decimal

end Transcode
