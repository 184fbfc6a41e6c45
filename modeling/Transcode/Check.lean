import Transcode.Fault
import Transcode.Binary64.Integer

/-!
# Argument checks

The checks that every operation runs before it does anything: an argument is present, a length
is a safe nonnegative integer, and a half-open range `[from, upto)` lies inside a sequence.
The range checks run in a fixed order and stop at the first failure: `from`, then `upto`, then
the order of the two. A NaN fails every test it takes part in (it is no safe integer), and
`-0` passes as zero.
-/

namespace Transcode

namespace Check

/-- The number as a message shows it. -/
def numberText (x : Binary64) : Text := .ofString x.format

/-- Fails with `nullArgument message` when the value is absent. -/
def present (value : Option α) (message : Text) : Except Fault α :=
  match value with
  | some v => .ok v
  | none => .error (.nullArgument message)

/-- Whether a number is a safe integer in `[0, size]`; a NaN size lets every such number in. -/
def inBounds (x size : Binary64) : Bool := x.isSafeInteger && !x.isNegative && !(x.gt size)

/-- Accepts a nonnegative safe integer, the length of something. -/
def length (param : Text) (value : Binary64) : Except Fault Binary64 :=
  if value.isSafeInteger && !value.isNegative then .ok value
  else .error (.argumentRange param (some (.number value))
    (param ++ .ofString " must be a non-negative integer, got " ++ numberText value))

/-- The fault of a bound `x` of the parameter `param` outside `[0, size]`. -/
def outside (param : String) (x size : Binary64) : Fault :=
  .argumentRange (.ofString param) (some (.number x))
    (.ofString (param ++ " ") ++ numberText x ++ .ofString " is outside [0, " ++
      numberText size ++ .ofString "]")

/-- The fault of a range whose start lies after its end. -/
def misordered (lo hi : Binary64) : Fault :=
  .argumentRange (.ofString "from") (some (.number lo))
    (.ofString "from " ++ numberText lo ++ .ofString " is greater than upto " ++ numberText hi)

/-- Accepts `0 ≤ from ≤ upto ≤ size` with both ends safe integers. -/
def indexRange (lo hi size : Binary64) : Except Fault Unit :=
  if !inBounds lo size then .error (outside "from" lo size)
  else if !inBounds hi size then .error (outside "upto" hi size)
  else if lo.gt hi then .error (misordered lo hi)
  else .ok ()

end Check

end Transcode
