import Transcode.Proofs.Charset.Utf8

/-!
# The UTF-8 decoder's loop: it ends, and it writes no more than it reads

The decoder of the Encoding standard is a loop: each turn reads the next byte and hands it to
the UTF-8 handler, which emits a code point, begins or extends a sequence, or, on a byte that
breaks the pending sequence, emits `U+FFFD` and puts the byte back to be read again. A turn that
puts its byte back consumes nothing, so the loop is no structural recursion over the bytes.
Here one turn is written out as a transition of the loop's state (`Utf8.turn`), the six things
a turn can do are listed once (`Utf8.Turn`, `Turn.of_turn`), and `decodeFrom` is the loop run to
its end (`decodeFrom_of_turn`).

Two potentials of a state carry the argument, both counting the bytes left and the pending
sequence:

* `2 · (bytes left) + (1 if a sequence is pending)` drops at every turn (`turn_measure_lt`): a
  turn that puts its byte back ends the pending sequence, and from the initial state every turn
  consumes a byte (`turn_consumes_of_initial`), so no byte is put back twice. The loop therefore
  finishes within that many turns from any state (`run_of_measure_le`).
* `(bytes left) + (1 if a sequence is pending)` drops at every turn by at least the number of
  UTF-16 code units the turn emits (`turn_units_le`): a `U+FFFD` for a byte or a broken sequence
  is one unit, and a completed sequence is at most two units, paid by its last byte and by the
  sequence. So decoded text has at most as many code units as the bytes it comes from
  (`length_decode_le`).
-/

namespace Transcode.Utf8

/-- The state of the decoder's loop: the sequence under way, if any, and the bytes left. -/
structure LoopState where
  pending : Option Pending
  input : List UInt8

namespace LoopState

/-- The measure of termination: two for each byte left, one more while a sequence is
pending. -/
def measure (s : LoopState) : Nat := 2 * s.input.length + if s.pending.isSome then 1 else 0

/-- The code units the rest of the loop may still emit: one for each byte left and one for a
pending sequence. -/
def budget (s : LoopState) : Nat := s.input.length + if s.pending.isSome then 1 else 0

end LoopState

/-- One turn of the decoder's loop: what it emits and the state it leaves, or `none` once the
bytes are used up with nothing pending. -/
def turn : LoopState → Option (List Nat × LoopState)
  | ⟨none, []⟩ => none
  | ⟨some _, []⟩ => some ([0xFFFD], ⟨none, []⟩)
  | ⟨none, b :: rest⟩ =>
    match start b with
    | .emit c => some ([c], ⟨none, rest⟩)
    | .begin p => some ([], ⟨some p, rest⟩)
  | ⟨some p, b :: rest⟩ =>
    if p.lower ≤ b && b ≤ p.upper then
      let acc := p.acc * 64 + b.toNat % 64
      if p.need ≤ 1 then some ([acc], ⟨none, rest⟩)
      else some ([], ⟨some ⟨p.need - 1, acc, 0x80, 0xBF⟩, rest⟩)
    -- the byte breaks the sequence: it is put back, to be read again from the initial state
    else some ([0xFFFD], ⟨none, b :: rest⟩)

/-- The loop run for at most `fuel` turns: everything it emits, or `none` when it has not
finished by then. -/
def run (fuel : Nat) (s : LoopState) : Option (List Nat) :=
  match fuel, turn s with
  | _, none => some []
  | 0, some _ => none
  | n + 1, some (out, s') => (run n s').map (out ++ ·)

/-! ## One turn -/

/-- The loop has finished exactly when no byte is left and no sequence is pending. -/
theorem turn_eq_none_iff (s : LoopState) : turn s = none ↔ s.pending = none ∧ s.input = [] := by
  obtain ⟨pending, input⟩ := s
  cases pending with
  | none =>
    cases input with
    | nil => simp [turn]
    | cons b rest =>
      simp only [turn, reduceCtorEq, and_false, iff_false]
      cases start b <;> simp
  | some p =>
    cases input with
    | nil => simp [turn]
    | cons b rest =>
      simp only [turn, reduceCtorEq, false_and, iff_false]
      split
      · split <;> simp
      · simp

/-- The transitions of the decoder's loop: what a turn emits and the state it leaves, for each
thing a turn can do. -/
inductive Turn : LoopState → List Nat → LoopState → Prop
  /-- A byte read in the initial state emits a code point. -/
  | emit {b : UInt8} {rest : List UInt8} {c : Nat} (hStart : start b = .emit c) :
      Turn ⟨none, b :: rest⟩ [c] ⟨none, rest⟩
  /-- A byte read in the initial state begins a sequence. -/
  | begin {b : UInt8} {rest : List UInt8} {p : Pending} (hStart : start b = .begin p) :
      Turn ⟨none, b :: rest⟩ [] ⟨some p, rest⟩
  /-- The bytes end inside a sequence. -/
  | truncated {p : Pending} : Turn ⟨some p, []⟩ [0xFFFD] ⟨none, []⟩
  /-- The last byte of a sequence completes it. -/
  | complete {p : Pending} {b : UInt8} {rest : List UInt8} (hIn : p.lower ≤ b ∧ b ≤ p.upper)
      (hNeed : p.need ≤ 1) :
      Turn ⟨some p, b :: rest⟩ [p.acc * 64 + b.toNat % 64] ⟨none, rest⟩
  /-- Any other byte inside its range extends the sequence. -/
  | extend {p : Pending} {b : UInt8} {rest : List UInt8} (hIn : p.lower ≤ b ∧ b ≤ p.upper)
      (hNeed : 1 < p.need) :
      Turn ⟨some p, b :: rest⟩ []
        ⟨some ⟨p.need - 1, p.acc * 64 + b.toNat % 64, 0x80, 0xBF⟩, rest⟩
  /-- A byte outside the range breaks the sequence and is put back. -/
  | putBack {p : Pending} {b : UInt8} {rest : List UInt8}
      (hOut : ¬ (p.lower ≤ b ∧ b ≤ p.upper)) :
      Turn ⟨some p, b :: rest⟩ [0xFFFD] ⟨none, b :: rest⟩

/-- **Every turn is one of the transitions.** -/
theorem Turn.of_turn {s s' : LoopState} {out : List Nat} (h : turn s = some (out, s')) :
    Turn s out s' := by
  obtain ⟨pending, input⟩ := s
  cases pending with
  | none =>
    cases input with
    | nil => simp [turn] at h
    | cons b rest =>
      cases hStart : start b with
      | emit c =>
        simp only [turn, hStart, Option.some.injEq, Prod.mk.injEq] at h
        obtain ⟨rfl, rfl⟩ := h
        exact .emit hStart
      | begin p =>
        simp only [turn, hStart, Option.some.injEq, Prod.mk.injEq] at h
        obtain ⟨rfl, rfl⟩ := h
        exact .begin hStart
  | some p =>
    cases input with
    | nil =>
      simp only [turn, Option.some.injEq, Prod.mk.injEq] at h
      obtain ⟨rfl, rfl⟩ := h
      exact .truncated
    | cons b rest =>
      by_cases hIn : p.lower ≤ b ∧ b ≤ p.upper
      · by_cases hNeed : p.need ≤ 1
        · simp only [turn, hIn.1, hIn.2, decide_true, Bool.and_self, if_true, hNeed,
            Option.some.injEq, Prod.mk.injEq] at h
          obtain ⟨rfl, rfl⟩ := h
          exact .complete hIn hNeed
        · simp only [turn, hIn.1, hIn.2, decide_true, Bool.and_self, if_true, hNeed, if_false,
            Option.some.injEq, Prod.mk.injEq] at h
          obtain ⟨rfl, rfl⟩ := h
          exact .extend hIn (by omega)
      · have hOut : (decide (p.lower ≤ b) && decide (b ≤ p.upper)) = false := by
          simpa using hIn
        simp only [turn, hOut, Bool.false_eq_true, if_false, Option.some.injEq,
          Prod.mk.injEq] at h
        obtain ⟨rfl, rfl⟩ := h
        exact .putBack hIn

/-- **`decodeFrom` is the loop**: what a turn emits, then the rest of the loop from the state
it leaves. -/
theorem decodeFrom_of_turn {s s' : LoopState} {out : List Nat} (h : turn s = some (out, s')) :
    decodeFrom s.pending s.input = out ++ decodeFrom s'.pending s'.input := by
  cases Turn.of_turn h with
  | emit hStart => exact decodeFrom_emit hStart _
  | begin hStart => exact decodeFrom_begin hStart _
  | truncated => simp [decodeFrom]
  | complete hIn hNeed => exact decodeFrom_accept hIn hNeed _
  | extend hIn hNeed => exact decodeFrom_continue hIn hNeed _
  | putBack hOut => exact decodeFrom_reject hOut _

/-- What a turn can do to the state: consume its byte (emitting or not), or leave the bytes as
they are and end the pending sequence, which happens when the byte is put back and at the end of
the input. -/
theorem turn_cases {s s' : LoopState} {out : List Nat} (h : turn s = some (out, s')) :
    (∃ b, s.input = b :: s'.input) ∨
      (s'.input = s.input ∧ s.pending.isSome ∧ s'.pending = none) := by
  cases Turn.of_turn h with
  | emit _ | begin _ | complete _ _ | extend _ _ => exact .inl ⟨_, rfl⟩
  | truncated | putBack _ => exact .inr ⟨rfl, rfl, rfl⟩

/-- From the initial state every turn consumes the next byte. -/
theorem turn_consumes_of_initial {bs : List UInt8} {s' : LoopState} {out : List Nat}
    (h : turn ⟨none, bs⟩ = some (out, s')) : ∃ b, bs = b :: s'.input := by
  rcases turn_cases h with hConsumed | ⟨-, hPending, -⟩
  · exact hConsumed
  · simp at hPending

/-- **Every turn lowers the measure**: by two when it consumes a byte (a sequence may begin,
which adds one), by one when it puts a byte back or meets the end, which both end the pending
sequence. -/
theorem turn_measure_lt {s s' : LoopState} {out : List Nat} (h : turn s = some (out, s')) :
    s'.measure < s.measure := by
  unfold LoopState.measure
  rcases turn_cases h with ⟨b, hInput⟩ | ⟨hInput, hPending, hEnded⟩
  · rw [hInput, List.length_cons]
    split <;> split <;> omega
  · rw [hInput, hEnded, hPending]
    simp

/-- **A byte put back is read next, from the initial state, and consumed**: a turn that leaves
the bytes as they are ends the pending sequence, and then the loop either has finished or
consumes that byte in its next turn. -/
theorem turn_put_back {s s' : LoopState} {out : List Nat} (h : turn s = some (out, s'))
    (hKept : s'.input = s.input) :
    s'.pending = none ∧ (s.input = [] → turn s' = none) ∧
      ∀ b rest, s.input = b :: rest →
        ∃ out' s'', turn s' = some (out', s'') ∧ s''.input = rest := by
  have hEnded : s'.pending = none := by
    rcases turn_cases h with ⟨b, hInput⟩ | ⟨-, -, hEnded⟩
    · rw [hKept] at hInput
      exact absurd (congrArg List.length hInput) (by simp)
    · exact hEnded
  obtain ⟨pending', input'⟩ := s'
  simp only at hEnded hKept
  subst hEnded hKept
  refine ⟨rfl, fun hNil => (turn_eq_none_iff _).mpr ⟨rfl, hNil⟩, fun b rest hInput => ?_⟩
  cases hNext : turn ⟨none, s.input⟩ with
  | none =>
    rw [(turn_eq_none_iff _).mp hNext |>.2] at hInput
    cases hInput
  | some step =>
    obtain ⟨out', s''⟩ := step
    obtain ⟨b', hConsumed⟩ := turn_consumes_of_initial hNext
    rw [hInput] at hConsumed
    exact ⟨out', s'', rfl, (List.cons.inj hConsumed).2.symm⟩

/-! ## The whole loop -/

/-- **The loop finishes within `measure` turns** from any state, with `decodeFrom`'s output. -/
theorem run_of_measure_le (fuel : Nat) :
    ∀ s : LoopState, s.measure ≤ fuel → run fuel s = some (decodeFrom s.pending s.input) := by
  induction fuel with
  | zero =>
    intro s hs
    -- a state of measure `0` has nothing left: the loop ends without a turn
    have hDone : turn s = none := by
      cases hTurn : turn s with
      | none => rfl
      | some step => exact absurd (turn_measure_lt hTurn) (by omega)
    obtain ⟨hPending, hInput⟩ := (turn_eq_none_iff s).mp hDone
    simp [run, hDone, hPending, hInput, decodeFrom]
  | succ n ih =>
    intro s hs
    cases hTurn : turn s with
    | none =>
      obtain ⟨hPending, hInput⟩ := (turn_eq_none_iff s).mp hTurn
      simp [run, hTurn, hPending, hInput, decodeFrom]
    | some step =>
      obtain ⟨out, s'⟩ := step
      have hNext := ih s' (by have := turn_measure_lt hTurn; omega)
      rw [run.eq_def]
      simp only [hTurn, hNext, Option.map_some, decodeFrom_of_turn hTurn]

/-! ## Code units out, bytes in -/

@[simp] theorem length_ofCodePoints_append (a b : List Nat) :
    (Text.ofCodePoints (a ++ b)).length =
      (Text.ofCodePoints a).length + (Text.ofCodePoints b).length := by
  simp [Text.ofCodePoints, Text.length]

theorem length_ofCodePoints_singleton (c : Nat) :
    (Text.ofCodePoints [c]).length = if c < 0x10000 then 1 else 2 := by
  simp only [Text.ofCodePoints, Text.length, List.flatMap_cons, List.flatMap_nil, List.append_nil,
    Text.unitsOf]
  split <;> rfl

theorem length_ofCodePoints_replacement : (Text.ofCodePoints [0xFFFD]).length = 1 := rfl

/-- A byte read in the initial state emits a code point of one unit: itself, or `U+FFFD`. -/
theorem start_emit_lt {b : UInt8} {c : Nat} (h : start b = .emit c) : c < 0x10000 := by
  have hLt : b.toNat < 256 := UInt8.toNat_lt b
  unfold start at h
  split at h
  · cases h; omega
  · repeat (split at h; · cases h)
    cases h; omega

/-- **Every turn pays for what it emits**: its code units and what the state it leaves may
still emit come to at most what the state it starts from may. -/
theorem turn_units_le {s s' : LoopState} {out : List Nat} (h : turn s = some (out, s')) :
    (Text.ofCodePoints out).length + s'.budget ≤ s.budget := by
  unfold LoopState.budget
  cases Turn.of_turn h with
  | emit hStart =>
    simp only [length_ofCodePoints_singleton, start_emit_lt hStart, if_true, List.length_cons,
      Option.isSome_none, Bool.false_eq_true, if_false]
    omega
  | begin _ => simp [Text.ofCodePoints, Text.length]
  | truncated => simp [length_ofCodePoints_replacement]
  | complete _ _ =>
    -- at most two units, paid by the last byte and by the sequence
    rw [length_ofCodePoints_singleton]
    simp only [List.length_cons, Option.isSome_some, Option.isSome_none, Bool.false_eq_true,
      ↓reduceIte]
    split <;> omega
  | extend _ _ => simp [Text.ofCodePoints, Text.length]
  | putBack _ =>
    simp only [length_ofCodePoints_replacement, List.length_cons, Option.isSome_some,
      Option.isSome_none, Bool.false_eq_true, ↓reduceIte]
    omega

/-- **The loop writes no more code units than its budget**, from any state. The induction is
the loop's own: on the measure that every turn lowers. -/
theorem length_decodeFrom_le (s : LoopState) :
    (Text.ofCodePoints (decodeFrom s.pending s.input)).length ≤ s.budget := by
  cases hTurn : turn s with
  | none =>
    obtain ⟨hPending, hInput⟩ := (turn_eq_none_iff s).mp hTurn
    simp [hPending, hInput, decodeFrom, Text.ofCodePoints, Text.length]
  | some step =>
    obtain ⟨out, s'⟩ := step
    have hRest := length_decodeFrom_le s'
    have hTurnUnits := turn_units_le hTurn
    rw [decodeFrom_of_turn hTurn, length_ofCodePoints_append]
    omega
termination_by s.measure
decreasing_by exact turn_measure_lt hTurn

/-- Decoded text has at most as many code units as the bytes it comes from. -/
theorem length_decode_le (bs : List UInt8) : (decode bs).length ≤ bs.length := by
  have h := length_decodeFrom_le ⟨none, bs⟩
  simpa [LoopState.budget, decode] using h

/-- **The UTF-8 decoder's loop ends, and writes no more than it reads.** Every turn lowers
`2 · (bytes left) + (1 if a sequence is pending)`; a turn that puts its byte back ends the
pending sequence, and the byte is consumed by the next turn, from the initial state; so on any
bytes the loop finishes within twice as many turns as there are bytes, with the decoder's
output. Every turn emits at most as many code units as it lowers
`(bytes left) + (1 if a sequence is pending)`, so decoded text, also through `getString` with
any charset argument that resolves to UTF-8, has at most as many code units as there are
bytes. -/
theorem decode_loop_ends :
    (∀ s s' out, turn s = some (out, s') → s'.measure < s.measure) ∧
    (∀ s s' out, turn s = some (out, s') → s'.input = s.input →
      s'.pending = none ∧ ∀ b rest, s.input = b :: rest →
        ∃ out' s'', turn s' = some (out', s'') ∧ s''.input = rest) ∧
    (∀ bs, run (2 * bs.length) ⟨none, bs⟩ = some (decodeFrom none bs)) ∧
    (∀ s s' out, turn s = some (out, s') → (Text.ofCodePoints out).length + s'.budget ≤ s.budget) ∧
    (∀ bs, (decode bs).length ≤ bs.length) ∧
    (∀ spec, resolveCharset spec = .ok (.builtin .utf8) → ∀ src : ByteSource,
      ∃ t, getString (some src) (some spec) = .ok t ∧ t.length ≤ src.toBytes.length) := by
  refine ⟨fun s s' out h => turn_measure_lt h, fun s s' out h hKept => ?_,
    fun bs => run_of_measure_le _ ⟨none, bs⟩ (by simp [LoopState.measure]),
    fun s s' out h => turn_units_le h, length_decode_le, fun spec hSpec src => ?_⟩
  · obtain ⟨hEnded, -, hNext⟩ := turn_put_back h hKept
    exact ⟨hEnded, hNext⟩
  · exact ⟨_, getString_of_resolveCharset hSpec src, length_decode_le src.toBytes⟩

/-- The loop on `E2 41`: `E2` begins a three-byte sequence, which `41` breaks; `41` is put back,
read from the initial state and consumed. -/
theorem decode_loop_ends_put_back :
    turn ⟨some ⟨2, 2, 0x80, 0xBF⟩, [0x41]⟩ = some ([0xFFFD], ⟨none, [0x41]⟩) ∧
      (⟨none, [0x41]⟩ : LoopState).pending = none ∧
      ∃ out' s'', turn ⟨none, [0x41]⟩ = some (out', s'') ∧ s''.input = [] := by
  have hTurn : turn ⟨some ⟨2, 2, 0x80, 0xBF⟩, [0x41]⟩ = some ([0xFFFD], ⟨none, [0x41]⟩) :=
    rfl
  obtain ⟨hEnded, hNext⟩ := decode_loop_ends.2.1 _ _ _ hTurn rfl
  exact ⟨hTurn, hEnded, hNext 0x41 [] rfl⟩

end Transcode.Utf8
