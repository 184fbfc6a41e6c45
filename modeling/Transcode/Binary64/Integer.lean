import Transcode.Binary64.Basic

/-!
# Integers from binary64 values

Storing a number into a 32-bit or 8-bit integer cell wraps rather than saturates: the value is
truncated toward zero and reduced modulo `2 ^ 32` (or `2 ^ 8`); a NaN or an infinity stores `0`.
`truncate` does the first step exactly on the decoded significand, and `Int32.ofInt` and the
reduction modulo `256` do the second. A byte read through a signed 32-bit mask
(`maskByte`) is the same byte as a direct 8-bit store (`toUInt8`), since both keep the low eight
bits of the truncated value.

A *safe integer* is an integral value of magnitude at most `2 ^ 53 - 1`: the integers that
binary64 represents together with both neighbours.
-/

namespace Transcode

namespace Binary64

/-- The value truncated toward zero; `0` for a NaN or an infinity. -/
def truncate (x : Binary64) : Int :=
  match x.kind with
  | .finite negative m q =>
    let n : Nat := if 0 ≤ q then m * Nat.pow 2 q.toNat else m / Nat.pow 2 (-q).toNat
    if negative then -(n : Int) else n
  | _ => 0

/-- The 32-bit two's-complement cell value: the truncation reduced into `[-2^31, 2^31)`. -/
def toInt32 (x : Binary64) : Int32 := Int32.ofInt x.truncate

/-- The 8-bit cell value: the truncation modulo `256`. -/
def toUInt8 (x : Binary64) : UInt8 := UInt8.ofNat (x.truncate % 256).toNat

/-- The low byte of the 32-bit cell value, as a bitwise mask with `0xff` takes it. -/
def maskByte (x : Binary64) : UInt8 := UInt8.ofNat (x.toInt32.toInt % 256).toNat

/-- Whether the value is a finite integer (either zero counts). -/
def isInteger (x : Binary64) : Bool :=
  match x.kind with
  | .finite _ m q => 0 ≤ q || m % Nat.pow 2 (-q).toNat = 0
  | _ => false

/-- Whether the value is an integer of magnitude at most `2 ^ 53 - 1`. -/
def isSafeInteger (x : Binary64) : Bool :=
  x.isInteger && x.truncate.natAbs ≤ Nat.pow 2 53 - 1

/-- Whether the value is below zero (`-0` is not). -/
def isNegative (x : Binary64) : Bool := x.lt (zero false)

end Binary64

end Transcode
