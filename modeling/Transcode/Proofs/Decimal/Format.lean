import Transcode.Check
import Transcode.Coercion
import Transcode.Proofs.Decimal.Notation

/-!
# The standard text of a number

`Binary64.format` writes a NaN and the infinities as words, both zeros as `0`, and every other
value with the decimal digits the script language standard prescribes: as few as read back as
the value, and among as few the nearest to it, ties to an even last digit. This module proves
that the digits `Decimal.shortest` finds are those, and that the text converts back to the value
written, except that `-0` comes back as `0`. The argument checks insert this text for a
number (`Check.numberText`), and so does a range fault's default message.

## Main results

* `Decimal.Digits.Represents`: the standard's choice of digits for a number.
* `Binary64.represents_shortest`: the shortest digits of a finite nonzero value are that choice.
* `Binary64.toNumber_format`: the text of every value but a NaN converts back to it.
* `Binary64.number_text`: what the messages insert for a number.
-/

namespace Transcode

namespace Decimal

/-- The digits `d` of the standard's text of `x`, a number of sign `negative` and magnitude `v`:
they read back as `x`; no fewer digits do; and among as many digits that read back as `x`, the
value of `d` is nearest to `v`, an equally near other one having an even last digit in `d`. -/
structure Digits.Represents (d : Digits) (negative : Bool) (x : Binary64) (v : ℚ) : Prop where
  count_pos : 0 < d.count
  digits_ge : 10 ^ (d.count - 1) ≤ d.digits
  digits_lt : d.digits < 10 ^ d.count
  reads_back : Binary64.ofDecimal negative d.digits (d.exponent - d.count) = x
  fewest : ∀ (a : ℕ) (e : ℤ), Binary64.ofDecimal negative a e = x → 10 ^ (d.count - 1) ≤ a
  nearest : ∀ (a : ℕ) (e : ℤ), a < 10 ^ d.count → Binary64.ofDecimal negative a e = x →
    |d.value - v| ≤ |a * 10 ^ e - v| ∧
      (|d.value - v| = |a * 10 ^ e - v| → (a : ℚ) * 10 ^ e = d.value ∨ Even d.digits)

namespace Digits

variable {d : Digits} {negative : Bool} {x : Binary64} {v : ℚ}

theorem Represents.digits_pos (h : d.Represents negative x v) : 0 < d.digits :=
  lt_of_lt_of_le (Nat.pow_pos (by norm_num)) h.digits_ge

theorem Represents.length_toString (h : d.Represents negative x v) :
    (toString d.digits).length = d.count :=
  length_toString_eq h.count_pos h.digits_ge h.digits_lt

/-- The decimals that read back as a finite nonzero value are those in its rounding interval, so
the shortest and nearest decimal in the interval is the standard's choice for the value. -/
theorem ShortestIn.represents {m : ℕ} {q : ℤ} (hx : x.kind = .finite negative m q) (hm : m ≠ 0)
    (h : d.ShortestIn (Interval.around m q (m = Nat.pow 2 52 && 1 < x.biased))) :
    d.Represents negative x (m * 2 ^ q) := by
  have hRead : ∀ (a : ℕ) (e : ℤ), Binary64.ofDecimal negative a e = x ↔
      a ≠ 0 ∧ (Interval.around m q (m = Nat.pow 2 52 && 1 < x.biased)).Mem (a * 10 ^ e) :=
    fun a e => Binary64.ofDecimal_eq_iff hx hm
  have hPos : 0 < d.digits := lt_of_lt_of_le (Nat.pow_pos (by norm_num)) h.digits_ge
  refine ⟨h.count_pos, h.digits_ge, h.digits_lt, (hRead _ _).mpr ⟨hPos.ne', h.mem⟩,
    fun a e ha => ?_, fun a e hLt ha => ?_⟩
  · obtain ⟨hNe, hMem⟩ := (hRead a e).mp ha
    exact h.fewest a e (Nat.pos_of_ne_zero hNe) hMem
  · rw [← center_around m q (m = Nat.pow 2 52 && 1 < x.biased)]
    exact h.nearest a e hLt ((hRead a e).mp ha).2

end Digits

end Decimal

namespace Fault

/-- A range fault's default message inserts a number as the argument checks do. -/
theorem outOfRange_number (param : Text) (x : Binary64) :
    outOfRange param (some (.number x)) none =
      .ok (.argumentRange param (some (.number x))
        (param ++ .ofString " is out of range: " ++ Check.numberText x)) := rfl

end Fault

namespace Binary64

variable {x : Binary64} {negative : Bool} {m : ℕ} {q : ℤ}

/-! ## What the text is, kind by kind -/

theorem format_of_nan (hx : x.kind = .nan) : x.format = "NaN" := by
  simp [format, Decimal.Notation.write, hx, Decimal.Notation.standard]

theorem format_of_infinite (hx : x.kind = .infinite negative) :
    x.format = (if negative then "-" else "") ++ "Infinity" := by
  simp [format, Decimal.Notation.write, hx, Decimal.Notation.standard]

/-- Both zeros are written `0`. -/
theorem format_of_zero (hx : x.kind = .finite negative 0 q) : x.format = "0" := by
  simp [format, Decimal.Notation.write, hx, Decimal.Notation.standard]

theorem digits?_of_kind (hx : x.kind = .finite negative m q) (hm : m ≠ 0) :
    x.digits? = some (Decimal.shortest m q (m = Nat.pow 2 52 && 1 < x.biased)) := by
  simp [digits?, hx, hm]

theorem format_of_finite (hx : x.kind = .finite negative m q) (hm : m ≠ 0) :
    x.format = (if negative then "-" else "") ++
      Decimal.Notation.standard.layout (Decimal.shortest m q (m = Nat.pow 2 52 && 1 < x.biased)) := by
  simp only [format, Decimal.Notation.write, hx, hm, if_false, digits?_of_kind hx hm]

/-- **The shortest digits of a finite nonzero value are the standard's choice for it.** -/
theorem represents_shortest (hx : x.kind = .finite negative m q) (hm : m ≠ 0) :
    (Decimal.shortest m q (m = Nat.pow 2 52 && 1 < x.biased)).Represents negative x (m * 2 ^ q) :=
  (Decimal.shortest_shortestIn hx hm).represents hx hm

/-! ## Reading the text back -/

/-- The value of a zero's bit pattern is a signed zero. -/
theorem eq_zero_of_kind (hx : x.kind = .finite negative 0 q) : x = zero negative := by
  obtain ⟨-, -, ⟨-, -, hq⟩ | ⟨-, hm, -⟩⟩ := kind_eq_finite_iff.mp hx
  · refine eq_of_kind_eq ?_ (by rw [hx]; nofun)
    rw [hx, kind_zero, hq]
  · omega

theorem eq_infinity_of_kind (hx : x.kind = .infinite negative) : x = infinity negative :=
  eq_of_kind_eq (by rw [hx, kind_infinity]) (by rw [hx]; nofun)

/-- **The text of a value converts back to it**, but for a NaN, which has no value to come back
as, and `-0`, which comes back as `0`. -/
theorem toNumber_format (hx : x.kind ≠ .nan) :
    (Text.ofString x.format).toNumber = if x = zero true then zero false else x := by
  cases hk : x.kind with
  | nan => exact absurd hk hx
  | infinite negative =>
    rw [format_of_infinite hk, eq_infinity_of_kind hk]
    cases negative <;> decide
  | finite negative m q =>
    by_cases hm : m = 0
    · subst hm
      rw [format_of_zero hk, eq_zero_of_kind hk]
      cases negative <;> decide
    · have hNe : x ≠ zero true := fun h => hm (by
        rw [h, kind_zero] at hk
        cases hk
        rfl)
      have hRep := represents_shortest hk hm
      rw [format_of_finite hk hm, if_neg hNe,
        Decimal.toNumber_layout negative hRep.digits_pos hRep.length_toString, hRep.reads_back]

/-- **What the messages insert for a number.** A range fault's default message inserts the same
text as the argument checks, the standard text of the number: `NaN`, `Infinity` or `-Infinity`
for the values that are no finite numbers, `0` for both zeros, and otherwise the sign and the
standard's digits of the value, positional exactly when the decimal exponent `n` of
`0.d₁d₂… · 10 ^ n` has `-6 < n ≤ 21`. Every text but a NaN's converts back to the number, with
`-0` coming back as `0`. -/
theorem number_text (x : Binary64) :
    (∀ param : Text, Fault.outOfRange param (some (.number x)) none =
      .ok (.argumentRange param (some (.number x))
        (param ++ .ofString " is out of range: " ++ Check.numberText x))) ∧
    (x.kind = .nan → x.format = "NaN") ∧
    (∀ negative, x.kind = .infinite negative →
      x.format = (if negative then "-" else "") ++ "Infinity") ∧
    (∀ negative q, x.kind = .finite negative 0 q → x.format = "0") ∧
    (∀ negative m q, x.kind = .finite negative m q → m ≠ 0 →
      ∃ d : Decimal.Digits,
        x.format = (if negative then "-" else "") ++ Decimal.Notation.standard.layout d ∧
        d.Represents negative x (m * 2 ^ q) ∧
        ('e' ∈ x.format.toList ↔ ¬(-6 < d.exponent ∧ d.exponent ≤ 21))) ∧
    (x.kind ≠ .nan → (Text.ofString x.format).toNumber = if x = zero true then zero false else x) := by
  refine ⟨fun param => Fault.outOfRange_number param x, format_of_nan, fun _ => format_of_infinite,
    fun _ _ => format_of_zero, fun negative m q hx hm => ?_, toNumber_format⟩
  have hRep := represents_shortest hx hm
  refine ⟨_, format_of_finite hx hm, hRep, ?_⟩
  -- the sign is no exponent mark
  rw [format_of_finite hx hm, String.toList_append, Decimal.sign_toList, List.mem_append,
    Decimal.mem_layout_iff hRep.digits_pos hRep.length_toString]
  cases negative <;> simp

/-- Negative zero is written `0` and converts back to positive zero. -/
theorem number_text_negative_zero :
    (zero true).kind ≠ .nan ∧ (Text.ofString (zero true).format).toNumber = zero false := by
  have hKind : (zero true).kind ≠ .nan := by decide
  have hBack := (number_text (zero true)).2.2.2.2.2 hKind
  rw [if_pos rfl] at hBack
  exact ⟨hKind, hBack⟩

end Binary64

end Transcode
