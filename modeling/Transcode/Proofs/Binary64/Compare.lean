import Mathlib.Order.WithBot
import Transcode.Copy
import Transcode.Proofs.Binary64.Value

/-!
# Three-way comparison of numbers

A binary64 value that is no NaN denotes an extended rational (`Binary64.toExtended`): the
number of a finite value, `⊥` for negative infinity and `⊤` for positive infinity. Both zeros
denote `0`. The order of patterns (`Binary64.order`) works on the decoded fields; here it is
shown to be the order of what they denote (`Binary64.order_eq_compare`), the infinities
included.

`compareNumbers` refuses absent operands, then NaN operands, and otherwise answers `-1`, `0` or
`1` as the first operand lies below, at or above the second. So on numbers that are no NaN it is
a lawful three-way comparator: its answer is `0` exactly for equal extended rationals, it changes
sign when the operands are swapped, and "at most" is transitive, for every pair and triple of
patterns (signed zeros, subnormals, infinities and integers past `2 ^ 53` alike).

## Main results

* `Binary64.order_eq_compare`: patterns compare as the extended rationals they denote.
* `compareNumbers_of_toExtended`: the answer on two numbers that are no NaN.
* `compareNumbers_lawful`: the faults, in their order, and the comparator laws.
-/

namespace Transcode

namespace Binary64

/-- The extended rational a value denotes: the number of a finite value and `⊥` or `⊤` for an
infinity of negative or positive sign; `none` for a NaN. -/
def toExtended (x : Binary64) : Option (WithBot (WithTop ℚ)) :=
  match x.kind with
  | .nan => none
  | .infinite negative => some (if negative then ⊥ else ⊤)
  | .finite negative m q => some ((dyadic negative m q : WithTop ℚ) : WithBot (WithTop ℚ))

/-- A value denotes nothing exactly when it is a NaN. -/
theorem toExtended_eq_none_iff (x : Binary64) : x.toExtended = none ↔ x.isNaN = true := by
  unfold toExtended isNaN
  cases x.kind <;> simp

theorem isNaN_eq_false_iff (x : Binary64) : x.isNaN = false ↔ ∃ e, x.toExtended = some e := by
  rw [← Bool.not_eq_true, ← toExtended_eq_none_iff]
  exact Option.ne_none_iff_exists'

theorem toExtended_of_infinite {x : Binary64} {negative : Bool} (h : x.kind = .infinite negative) :
    x.toExtended = some (if negative then ⊥ else ⊤) := by
  unfold toExtended
  rw [h]

theorem toExtended_of_toRat? {x : Binary64} {a : ℚ} (h : x.toRat? = some a) :
    x.toExtended = some ((a : WithTop ℚ) : WithBot (WithTop ℚ)) := by
  obtain ⟨negative, m, q, hKind, rfl⟩ := toRat?_eq_some.mp h
  unfold toExtended
  rw [hKind]

/-- An infinity denotes the extreme of its sign. -/
theorem toExtended_infinity (negative : Bool) :
    (infinity negative).toExtended = some (if negative then ⊥ else ⊤) :=
  -- through the general lemma: the kernel would otherwise unfold the pattern's bits
  toExtended_of_infinite (kind_infinity negative)

/-- The rationals sit inside the extended rationals in their order. -/
theorem coe_strictMono : StrictMono fun a : ℚ => ((a : WithTop ℚ) : WithBot (WithTop ℚ)) :=
  WithBot.coe_strictMono.comp WithTop.coe_strictMono

theorem coe_lt_top (a : ℚ) : ((a : WithTop ℚ) : WithBot (WithTop ℚ)) < ⊤ :=
  WithBot.coe_lt_coe.mpr (WithTop.coe_lt_top a)

/-- **Patterns compare as the extended rationals they denote.** -/
theorem order_eq_compare {x y : Binary64} {a b : WithBot (WithTop ℚ)} (hx : x.toExtended = some a)
    (hy : y.toExtended = some b) : x.order y = some (compare a b) := by
  unfold toExtended at hx hy
  unfold order
  -- an infinity is the extreme of its sign; two finite values compare as their numbers
  cases hKindX : x.kind with
  | nan => simp [hKindX] at hx
  | infinite s₁ =>
    cases hKindY : y.kind with
    | nan => simp [hKindY] at hy
    | infinite s₂ =>
      simp only [hKindX, hKindY, Option.some.injEq] at hx hy ⊢
      subst hx hy
      symm
      cases s₁ <;> cases s₂ <;> simp [compare_lt_iff_lt, compare_gt_iff_gt]
    | finite s₂ m₂ q₂ =>
      simp only [hKindX, hKindY, Option.some.injEq] at hx hy ⊢
      subst hx hy
      symm
      cases s₁ <;> simp [compare_lt_iff_lt, compare_gt_iff_gt, coe_lt_top]
  | finite s₁ m₁ q₁ =>
    cases hKindY : y.kind with
    | nan => simp [hKindY] at hy
    | infinite s₂ =>
      simp only [hKindX, hKindY, Option.some.injEq] at hx hy ⊢
      subst hx hy
      symm
      cases s₂ <;> simp [compare_lt_iff_lt, compare_gt_iff_gt, coe_lt_top]
    | finite s₂ m₂ q₂ =>
      simp only [hKindX, hKindY, Option.some.injEq] at hx hy
      subst hx hy
      have hOrder := order_of_toRat? (toRat?_of_kind hKindX) (toRat?_of_kind hKindY)
      unfold order at hOrder
      rw [hKindX, hKindY] at hOrder
      rw [hOrder, ← cmp_eq_compare, ← cmp_eq_compare, coe_strictMono.cmp_map_eq]

theorem lt_eq_decide {x y : Binary64} {a b : WithBot (WithTop ℚ)} (hx : x.toExtended = some a)
    (hy : y.toExtended = some b) : x.lt y = decide (a < b) := by
  unfold lt
  simp only [order_eq_compare hx hy, Option.some.injEq, compare_lt_iff_lt]

theorem gt_eq_decide {x y : Binary64} {a b : WithBot (WithTop ℚ)} (hx : x.toExtended = some a)
    (hy : y.toExtended = some b) : x.gt y = decide (b < a) := by
  unfold gt
  simp only [order_eq_compare hx hy, Option.some.injEq, compare_gt_iff_gt]

end Binary64

/-- The fault `compareNumbers` reports for a NaN operand named `param`. -/
def nanOperand (param : String) (x : Binary64) : Fault :=
  .argumentRange (.ofString param) (some (.number x)) (.ofString "compare() operands must not be NaN")

/-- The two NaN faults differ in the parameter they name. -/
theorem nanOperand_b_ne_a (a b : Binary64) : nanOperand "b" b ≠ nanOperand "a" a := by
  intro h
  cases h

/-- With both operands present, `compareNumbers` checks `a` for NaN, then `b`, then compares. -/
theorem compareNumbers_some (a b : Binary64) :
    compareNumbers (some a) (some b) =
      if a.isNaN then .error (nanOperand "a" a)
      else if b.isNaN then .error (nanOperand "b" b)
      else .ok (if a.lt b then -1 else if a.gt b then 1 else 0) := by
  simp only [compareNumbers, Check.present, bind, Except.bind, throw, throwThe, MonadExceptOf.throw]
  cases a.isNaN <;> cases b.isNaN <;> rfl

/-- The three-way answer on a linear order: `-1` below, `0` at, `1` above. -/
def threeWay {α : Type} [LinearOrder α] (a b : α) : Int :=
  if a < b then -1 else if b < a then 1 else 0

section ThreeWay

variable {α : Type} [LinearOrder α] (a b : α)

theorem threeWay_cases : threeWay a b = -1 ∨ threeWay a b = 0 ∨ threeWay a b = 1 := by
  unfold threeWay
  split_ifs <;> simp

theorem threeWay_eq_zero_iff : threeWay a b = 0 ↔ a = b := by
  unfold threeWay
  rcases lt_trichotomy a b with hLt | rfl | hGt
  · simp [hLt, hLt.ne]
  · simp
  · simp [hGt, not_lt_of_gt hGt, hGt.ne']

theorem threeWay_eq_neg_one_iff : threeWay a b = -1 ↔ a < b := by
  unfold threeWay
  split_ifs with hLt hGt <;> simp [hLt]

theorem threeWay_nonpos_iff : threeWay a b ≤ 0 ↔ a ≤ b := by
  unfold threeWay
  rcases lt_trichotomy a b with hLt | rfl | hGt
  · simp [hLt, hLt.le]
  · simp
  · simp [hGt, not_lt_of_gt hGt, not_le_of_gt hGt]

theorem threeWay_swap : threeWay b a = -threeWay a b := by
  unfold threeWay
  rcases lt_trichotomy a b with hLt | rfl | hGt
  · simp [hLt, not_lt_of_gt hLt]
  · simp
  · simp [hGt, not_lt_of_gt hGt]

end ThreeWay

/-- **The answer on numbers**: `-1`, `0` or `1` as the first operand's extended rational lies
below, at or above the second's. -/
theorem compareNumbers_of_toExtended {a b : Binary64} {ea eb : WithBot (WithTop ℚ)}
    (ha : a.toExtended = some ea) (hb : b.toExtended = some eb) :
    compareNumbers (some a) (some b) = .ok (threeWay ea eb) := by
  have hNaNa : a.isNaN = false := (Binary64.isNaN_eq_false_iff a).mpr ⟨ea, ha⟩
  have hNaNb : b.isNaN = false := (Binary64.isNaN_eq_false_iff b).mpr ⟨eb, hb⟩
  rw [compareNumbers_some, hNaNa, hNaNb, Binary64.lt_eq_decide ha hb, Binary64.gt_eq_decide ha hb]
  simp only [Bool.false_eq_true, if_false, decide_eq_true_eq]
  rfl

/-- An answer means that both operands denote extended rationals. -/
theorem toExtended_of_compareNumbers {a b : Binary64} {r : Int}
    (h : compareNumbers (some a) (some b) = .ok r) :
    ∃ ea eb, a.toExtended = some ea ∧ b.toExtended = some eb := by
  rw [compareNumbers_some] at h
  cases ha : a.isNaN
  · cases hb : b.isNaN
    · obtain ⟨ea, hea⟩ := (Binary64.isNaN_eq_false_iff a).mp ha
      obtain ⟨eb, heb⟩ := (Binary64.isNaN_eq_false_iff b).mp hb
      exact ⟨ea, eb, hea, heb⟩
    · simp [ha, hb] at h
  · simp [ha] at h

/-- **`compare` is a lawful three-way comparator.** An absent operand is refused first, `a`
before `b`; then a NaN operand, `a` before `b`, with the message that operands must not be NaN.
On numbers that are no NaN the answer is `-1`, `0` or `1`; it is `0` exactly when both denote
the same extended rational (so `-0` equals `+0`), `-1` exactly when the first lies below; it
changes sign with the operands; an infinity of negative sign is at most everything and one of
positive sign at least everything; and "at most" is transitive. -/
theorem compareNumbers_lawful :
    (∀ b, compareNumbers none b = .error (.nullArgument (.ofString "compare(null, ...)"))) ∧
    (∀ a, compareNumbers (some a) none = .error (.nullArgument (.ofString "compare(..., null)"))) ∧
    (∀ a b, compareNumbers (some a) (some b) = .error (nanOperand "a" a) ↔ a.isNaN = true) ∧
    (∀ a b, a.isNaN = false →
      (compareNumbers (some a) (some b) = .error (nanOperand "b" b) ↔ b.isNaN = true)) ∧
    (∀ a b, a.isNaN = false → b.isNaN = false →
      ∃ r ea eb, compareNumbers (some a) (some b) = .ok r ∧
        a.toExtended = some ea ∧ b.toExtended = some eb ∧
        (r = -1 ∨ r = 0 ∨ r = 1) ∧ (r = 0 ↔ ea = eb) ∧ (r = -1 ↔ ea < eb) ∧
        compareNumbers (some b) (some a) = .ok (-r)) ∧
    (∀ a, a.isNaN = false → ∃ r s, compareNumbers (some (.infinity true)) (some a) = .ok r ∧
      r ≤ 0 ∧ compareNumbers (some a) (some (.infinity false)) = .ok s ∧ s ≤ 0) ∧
    (∀ a b c r s, compareNumbers (some a) (some b) = .ok r → compareNumbers (some b) (some c) = .ok s →
      r ≤ 0 → s ≤ 0 → ∃ t, compareNumbers (some a) (some c) = .ok t ∧ t ≤ 0) := by
  refine ⟨fun _ => rfl, fun _ => rfl, fun a b => ?_, fun a b ha => ?_, fun a b ha hb => ?_,
    fun a ha => ?_, fun a b c r s hab hbc hr hs => ?_⟩
  · rw [compareNumbers_some]
    cases a.isNaN
    · cases b.isNaN
      · simp
      · simp [nanOperand_b_ne_a]
    · simp
  · rw [compareNumbers_some, ha]
    cases b.isNaN <;> simp
  · obtain ⟨ea, hea⟩ := (Binary64.isNaN_eq_false_iff a).mp ha
    obtain ⟨eb, heb⟩ := (Binary64.isNaN_eq_false_iff b).mp hb
    refine ⟨_, ea, eb, compareNumbers_of_toExtended hea heb, hea, heb, threeWay_cases ea eb,
      threeWay_eq_zero_iff ea eb, threeWay_eq_neg_one_iff ea eb, ?_⟩
    rw [compareNumbers_of_toExtended heb hea, threeWay_swap]
  · -- the infinities denote `⊥` and `⊤`
    obtain ⟨e, he⟩ := (Binary64.isNaN_eq_false_iff a).mp ha
    exact ⟨_, _, compareNumbers_of_toExtended (Binary64.toExtended_infinity true) he,
      (threeWay_nonpos_iff _ _).mpr bot_le,
      compareNumbers_of_toExtended he (Binary64.toExtended_infinity false),
      (threeWay_nonpos_iff _ _).mpr le_top⟩
  · obtain ⟨ea, eb, hea, heb⟩ := toExtended_of_compareNumbers hab
    obtain ⟨eb', ec, heb', hec⟩ := toExtended_of_compareNumbers hbc
    obtain rfl : eb' = eb := Option.some.inj (heb'.symm.trans heb)
    rw [compareNumbers_of_toExtended hea heb, Except.ok.injEq] at hab
    rw [compareNumbers_of_toExtended heb hec, Except.ok.injEq] at hbc
    subst hab hbc
    -- both answers at most `0` say `ea ≤ eb ≤ ec`
    have hLe₁ : ea ≤ eb' := (threeWay_nonpos_iff ea eb').mp hr
    have hLe₂ : eb' ≤ ec := (threeWay_nonpos_iff eb' ec).mp hs
    exact ⟨_, compareNumbers_of_toExtended hea hec, (threeWay_nonpos_iff ea ec).mpr
      (le_trans hLe₁ hLe₂)⟩

/-- The laws at the two zeros: `-0` and `+0` are no NaN, and they compare equal. -/
theorem compareNumbers_lawful_zeros :
    (Binary64.zero true).isNaN = false ∧ (Binary64.zero false).isNaN = false ∧
      compareNumbers (some (.zero true)) (some (.zero false)) = .ok 0 := by
  have hNeg : (Binary64.zero true).isNaN = false := by decide
  have hPos : (Binary64.zero false).isNaN = false := by decide
  obtain ⟨r, ea, eb, hr, hea, heb, -, hZero, -⟩ := compareNumbers_lawful.2.2.2.2.1 _ _ hNeg hPos
  -- both zeros denote `0`
  rw [Binary64.toExtended_of_toRat? (Binary64.toRat?_zero true), Option.some.injEq] at hea
  rw [Binary64.toExtended_of_toRat? (Binary64.toRat?_zero false), Option.some.injEq] at heb
  exact ⟨hNeg, hPos, hZero.mpr (hea.symm.trans heb) ▸ hr⟩

end Transcode
