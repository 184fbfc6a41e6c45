import Transcode.Text.Basic

/-!
# Tag handles and tag names

A tag handle is `!`, `!!` or `!name!` with a name of ASCII letters, digits and `-`. A tag name (or a
tag prefix of a `%TAG` directive) is a URI: its first character is `!` or anything but a flow
indicator, and the rest are URI characters or `%` escapes of two hex digits. A name is used
with its escapes decoded: each escape is a byte, and the bytes of a character must form
well-formed UTF-8, or the name is malformed.
-/

namespace Transcode

namespace Yaml

/-- ASCII letter, either case. -/
def isLetterUnit (u : UInt16) : Bool := (0x41 ≤ u && u ≤ 0x5A) || (0x61 ≤ u && u ≤ 0x7A)

/-- ASCII hex digit, either case. -/
def hexUnit (u : UInt16) : Option Nat :=
  if 0x30 ≤ u && u ≤ 0x39 then some (u.toNat - 0x30)
  else if 0x41 ≤ u && u ≤ 0x46 then some (u.toNat - 0x41 + 10)
  else if 0x61 ≤ u && u ≤ 0x66 then some (u.toNat - 0x61 + 10)
  else none

/-- Whether a unit is one of the flow indicators `,[]{}`. -/
def isFlowIndicatorUnit (u : UInt16) : Bool :=
  u = 0x2C || u = 0x5B || u = 0x5D || u = 0x7B || u = 0x7D

/-- A tag handle: `!`, `!!`, or `!` word characters (letters, digits, dashes) `!`. -/
def isTagHandle (t : Text) : Bool :=
  match t.units with
  | [0x21] => true
  | [0x21, 0x21] => true
  | 0x21 :: rest =>
    match rest.reverse with
    | 0x21 :: middle =>
      !middle.isEmpty && middle.all fun u => isLetterUnit u || (0x30 ≤ u && u ≤ 0x39) || u = 0x2D
    | _ => false
  | _ => false

/-- The characters a URI may hold besides `%` escapes. -/
def isUriUnit (u : UInt16) : Bool :=
  isLetterUnit u || (0x30 ≤ u && u ≤ 0x39) ||
    "-#;/?:@&=+$,_.!~*'()[]".toList.any fun c => c.toNat = u.toNat

/-- URI characters and `%` escapes, to the end. -/
def uriRest : List UInt16 → Bool
  | [] => true
  | 0x25 :: a :: b :: rest => (hexUnit a).isSome && (hexUnit b).isSome && uriRest rest
  | u :: rest => isUriUnit u && uriRest rest

/-- A tag URI: `!` or a unit that is no flow indicator, then URI characters and escapes. -/
def isTagUri (t : Text) : Bool :=
  match t.units with
  | u :: rest => (u = 0x21 || !isFlowIndicatorUnit u) && uriRest rest
  | [] => false

/-- Reads one `%hh` escape at the front. -/
def escapedByte : List UInt16 → Option (Nat × List UInt16)
  | 0x25 :: a :: b :: rest => do
    let x ← hexUnit a
    let y ← hexUnit b
    return (x * 16 + y, rest)
  | _ => none

/-- Reads `n` continuation bytes `10xxxxxx` written as escapes, gathering their bits. -/
def continuation (acc : Nat) : Nat → List UInt16 → Option (Nat × List UInt16)
  | 0, rest => some (acc, rest)
  | n + 1, rest => do
    let (b, rest) ← escapedByte rest
    if b / 64 = 2 then continuation (acc * 64 + b % 64) n rest else none

/-- One decoded character at the front of units starting with `%`, and the rest. -/
def escapedChar (l : List UInt16) : Option (Nat × List UInt16) := do
  let (b, rest) ← escapedByte l
  if b < 0x80 then some (b, rest)
  else if b / 32 = 6 then
    let r ← continuation (b % 32) 1 rest
    if 0x80 ≤ r.1 then some r else none
  else if b / 16 = 14 then
    let r ← continuation (b % 16) 2 rest
    if 0x800 ≤ r.1 && !(0xD800 ≤ r.1 && r.1 ≤ 0xDFFF) then some r else none
  else if b / 8 = 30 then
    let r ← continuation (b % 8) 3 rest
    if 0x10000 ≤ r.1 && r.1 ≤ 0x10FFFF then some r else none
  else none

/-- Decodes `%` escapes as UTF-8; `none` when an escape is cut short or the bytes are not
well-formed UTF-8. Other units are kept. Each step consumes at least one unit, so the
length of the input bounds the steps. -/
def percentDecode (l : List UInt16) : Option (List UInt16) :=
  go l.length l
where
  go : Nat → List UInt16 → Option (List UInt16)
    | _, [] => some []
    | 0, _ => none
    | fuel + 1, 0x25 :: rest => do
      let (c, rest) ← escapedChar (0x25 :: rest)
      let tail ← go fuel rest
      return Text.unitsOf c ++ tail
    | fuel + 1, u :: rest => (u :: ·) <$> go fuel rest

end Yaml

end Transcode
