import Transcode.Text.Basic

/-!
# UTF-8

Encoding first replaces each lone surrogate by `?`, so that the text is a sequence of Unicode
scalar values, and then writes each scalar value in one to four bytes. The lone surrogates are
found by a regular expression, `LONE_SURROGATE`: a high surrogate not followed by a low one, or a
low surrogate not preceded by a high one. It works on code units, tries every position from
left to right, and its lookarounds read the original text, so a match is always the single unit
it was tried at (`LoneSurrogate.replaceFrom`). What is left goes to the platform's encoder, which
reads a text by code point and would write `U+FFFD` for a lone surrogate (`encodeScalars`).

Decoding is the streaming decoder of the Encoding standard, in replacement mode and keeping a
leading byte order mark. A lead byte fixes how many continuation bytes follow and the range
the first of them must lie in (`A0`–`BF` after `E0`, `80`–`9F` after `ED`, `90`–`BF` after
`F0`, `80`–`8F` after `F4`, `80`–`BF` otherwise), which rules out overlong forms, surrogates
and values above `10FFFF`. A byte that breaks a pending sequence ends it with one `U+FFFD` and
is then read again as the start of what follows; a byte that cannot start a sequence is one
`U+FFFD`, and so is a sequence cut short by the end of the input.

The decoder's loop re-reads a byte without consuming it, so it is not structural recursion;
it ends because `2 · (bytes left) + (1 if a sequence is pending)` drops at every step.
-/

namespace Transcode

namespace Utf8

/-- The UTF-8 bytes of a scalar value. -/
def encodePoint (c : Nat) : List UInt8 :=
  if c < 0x80 then [c.toUInt8]
  else if c < 0x800 then [(0xC0 + c / 64).toUInt8, (0x80 + c % 64).toUInt8]
  else if c < 0x10000 then
    [(0xE0 + c / 4096).toUInt8, (0x80 + c / 64 % 64).toUInt8, (0x80 + c % 64).toUInt8]
  else
    [(0xF0 + c / 262144).toUInt8, (0x80 + c / 4096 % 64).toUInt8,
     (0x80 + c / 64 % 64).toUInt8, (0x80 + c % 64).toUInt8]

namespace LoneSurrogate

/-- The pattern `LONE_SURROGATE` tried at the unit `u`, with the unit before it and the unit after
it (`none` at an end of the text): a high surrogate that no low surrogate follows, or a low
surrogate that no high surrogate precedes. -/
def matchAt (before : Option UInt16) (u : UInt16) (after : Option UInt16) : Bool :=
  (Text.isHigh u && !(after.any Text.isLow)) || (Text.isLow u && !(before.any Text.isHigh))

/-- A global replacement of `LONE_SURROGATE` by the unit `r` over the units `us`, the first of
which stands at position `i` after the unit `before`: the units with every match replaced, and
the positions of the matches. The search goes from left to right; a match is the one unit it is
tried at, so the next search starts right after it, and the lookarounds read the original units,
not what an earlier match was replaced by. -/
def replaceFrom (r : UInt16) (i : Nat) (before : Option UInt16) :
    List UInt16 → List UInt16 × List Nat
  | [] => ([], [])
  | u :: rest =>
    let (out, found) := replaceFrom r (i + 1) (some u) rest
    if matchAt before u rest.head? then (r :: out, i :: found) else (u :: out, found)

end LoneSurrogate

/-- The platform's encoder: the text read by code point, each lone surrogate as `U+FFFD`, each
scalar value in UTF-8. -/
def encodeScalars (t : Text) : List UInt8 := ((t.scrub 0xFFFD).codePoints).flatMap encodePoint

/-- The UTF-8 bytes of a text and the number of lone surrogates written as `?`: each match of
`LONE_SURROGATE` is replaced by `?` and counted, and the platform's encoder writes the rest. -/
def encodeCounting (t : Text) : List UInt8 × Nat :=
  let (units, found) := LoneSurrogate.replaceFrom 0x3F 0 none t.units
  (encodeScalars ⟨units⟩, found.length)

/-- The UTF-8 bytes of a text, each lone surrogate written as `?`. -/
def encode (t : Text) : List UInt8 := (encodeCounting t).1

/-- A sequence under way: how many continuation bytes are still needed, the bits gathered so
far, and the range the next byte must lie in. -/
structure Pending where
  need : Nat
  acc : Nat
  lower : UInt8
  upper : UInt8
  deriving DecidableEq, Repr

/-- What a byte read in the initial state does: emit a code point or begin a sequence. -/
inductive Start where
  | emit (c : Nat)
  | begin (p : Pending)

/-- The initial-state reading of a byte. -/
def start (b : UInt8) : Start :=
  if b ≤ 0x7F then .emit b.toNat
  else if 0xC2 ≤ b && b ≤ 0xDF then .begin ⟨1, b.toNat % 32, 0x80, 0xBF⟩
  else if 0xE0 ≤ b && b ≤ 0xEF then
    .begin ⟨2, b.toNat % 16, if b = 0xE0 then 0xA0 else 0x80, if b = 0xED then 0x9F else 0xBF⟩
  else if 0xF0 ≤ b && b ≤ 0xF4 then
    .begin ⟨3, b.toNat % 8, if b = 0xF0 then 0x90 else 0x80, if b = 0xF4 then 0x8F else 0xBF⟩
  else .emit 0xFFFD

/-- The code points decoded from the bytes, starting in state `st`. -/
def decodeFrom (st : Option Pending) (bs : List UInt8) : List Nat :=
  match st, bs with
  | none, [] => []
  | some _, [] => [0xFFFD]
  | none, b :: rest =>
    match start b with
    | .emit c => c :: decodeFrom none rest
    | .begin p => decodeFrom (some p) rest
  | some p, b :: rest =>
    if p.lower ≤ b && b ≤ p.upper then
      let acc := p.acc * 64 + b.toNat % 64
      if p.need ≤ 1 then acc :: decodeFrom none rest
      else decodeFrom (some ⟨p.need - 1, acc, 0x80, 0xBF⟩) rest
    else 0xFFFD :: decodeFrom none (b :: rest)
termination_by 2 * bs.length + (if st.isSome then 1 else 0)
decreasing_by all_goals simp <;> omega

/-- The text decoded from UTF-8 bytes, malformed parts replaced by `U+FFFD`. -/
def decode (bs : List UInt8) : Text := Text.ofCodePoints (decodeFrom none bs)

end Utf8

end Transcode
