import Transcode.Decimal.Reading
import Transcode.Text.Blank

/-!
# Numbers from text

The number a text denotes when it is converted as a numeric string: blanks around it are
ignored; the empty text is zero; `0x`, `0o` and `0b` introduce an unsigned integer in base 16,
8 or 2; `Infinity` takes an optional sign; anything else must be a whole decimal literal
(`Decimal.read?`). A text of no such form denotes NaN. Integers are rounded to the nearest
binary64 value, like decimal literals.
-/

namespace Transcode

namespace Decimal

/-- The value of a digit in a base up to 16, if it is one. -/
def digitIn (base : Nat) (c : Char) : Option Nat :=
  let d :=
    if c.isDigit then c.toNat - '0'.toNat
    else if 'a' ≤ c && c ≤ 'f' then c.toNat - 'a'.toNat + 10
    else if 'A' ≤ c && c ≤ 'F' then c.toNat - 'A'.toNat + 10
    else base
  if d < base then some d else none

/-- The value of at least one digit in a base, if every character is one. -/
def radixValue? (base : Nat) (cs : List Char) : Option Nat :=
  if cs.isEmpty then none
  else cs.foldlM (fun acc c => (digitIn base c).map fun d => acc * base + d) 0

/-- The number a trimmed ASCII numeral denotes, or `none` when it is no numeral. -/
def numeral? (cs : List Char) : Option Binary64 :=
  match cs with
  | [] => some (.zero false)
  | '0' :: b :: rest =>
    if b = 'x' || b = 'X' then (radixValue? 16 rest).map .ofNat
    else if b = 'o' || b = 'O' then (radixValue? 8 rest).map .ofNat
    else if b = 'b' || b = 'B' then (radixValue? 2 rest).map .ofNat
    else read? cs
  | _ =>
    if cs = "Infinity".toList || cs = "+Infinity".toList then some (.infinity false)
    else if cs = "-Infinity".toList then some (.infinity true)
    else read? cs

end Decimal

/-- The number a text denotes as a numeric string; NaN when it denotes none. -/
def Text.toNumber (t : Text) : Binary64 :=
  let us := t.trim.units
  if us.all (· < 128) then
    (Decimal.numeral? (us.map fun u => Char.ofNat u.toNat)).getD .nan
  else .nan

example : (Text.ofString " 0x1F ").toNumber = .ofNat 31 := by decide
example : (Text.ofString "").toNumber = .zero false := by decide

end Transcode
