/-!
# Binary64 numbers

Every number this library reads, stores or prints is an IEEE 754 binary64 value, kept as its
64-bit pattern. The pattern is decoded by plain `Nat` arithmetic into a sign, a significand
`m` and a binary exponent `q` with magnitude `m · 2 ^ q` (`Binary64.kind`); no hardware
floating point operation is involved, so every function here can be evaluated in proofs.
Powers are written `Nat.pow`, which denotes the same function whatever arithmetic instances
are in scope where the definitions are used.

Building a number goes the other way: `Binary64.nearest` rounds a positive ratio `num / den`
to the binary64 value nearest to it, a tie going to the even significand, with gradual
underflow to subnormals and overflow to infinity. Reading decimals and converting integers
both go through it.

Comparison (`Binary64.order`) is exact comparison of the denoted extended reals: `-0` and `+0`
are equal, the infinities are the extremes, and a NaN compares with nothing.
-/

namespace Transcode

/-- An IEEE 754 binary64 value, given by its bit pattern. -/
structure Binary64 where
  bits : UInt64
  deriving DecidableEq, Repr, Inhabited

namespace Binary64

/-- What a bit pattern denotes: a NaN, an infinity, or the finite value
`(-1) ^ negative · mantissa · 2 ^ exponent` (zero has mantissa `0`). -/
inductive Kind where
  | nan
  | infinite (negative : Bool)
  | finite (negative : Bool) (mantissa : Nat) (exponent : Int)
  deriving DecidableEq, Repr

/-- The 52 fraction bits. -/
def fraction (x : Binary64) : Nat := x.bits.toNat % Nat.pow 2 52

/-- The 11 biased exponent bits. -/
def biased (x : Binary64) : Nat := x.bits.toNat / Nat.pow 2 52 % Nat.pow 2 11

/-- The sign bit. -/
def sign (x : Binary64) : Bool := Nat.pow 2 63 ≤ x.bits.toNat

/-- Decodes the fields. A biased exponent of `0` is a subnormal (or zero) with exponent
`-1074`; otherwise the hidden bit is added and the exponent is `biased - 1075`. -/
def kind (x : Binary64) : Kind :=
  if x.biased = 2047 then
    if x.fraction = 0 then .infinite x.sign else .nan
  else if x.biased = 0 then .finite x.sign x.fraction (-1074)
  else .finite x.sign (x.fraction + Nat.pow 2 52) ((x.biased : Int) - 1075)

/-- Builds a pattern from sign, biased exponent and fraction. -/
def ofFields (negative : Bool) (biased fraction : Nat) : Binary64 :=
  ⟨UInt64.ofNat ((if negative then Nat.pow 2 63 else 0) + biased * Nat.pow 2 52 + fraction)⟩

/-- The quiet NaN. -/
def nan : Binary64 := ofFields false 2047 (Nat.pow 2 51)

/-- Positive or negative infinity. -/
def infinity (negative : Bool) : Binary64 := ofFields negative 2047 0

/-- Positive or negative zero. -/
def zero (negative : Bool) : Binary64 := ofFields negative 0 0

/-- Whether the value is a NaN. -/
def isNaN (x : Binary64) : Bool := x.kind = .nan

/-- Whether the value is neither a NaN nor an infinity. -/
def isFinite (x : Binary64) : Bool := x.biased != 2047

/-- The value with its sign bit flipped. -/
def neg (x : Binary64) : Binary64 := ⟨x.bits ^^^ ((1 : UInt64) <<< 63)⟩

instance : Neg Binary64 := ⟨neg⟩

/-- Rounds `a / b` to an integer, a tie going to the even one. -/
def roundHalfEven (a b : Nat) : Nat :=
  let q := a / b
  let r := a % b
  if 2 * r < b then q else if b < 2 * r then q + 1 else if q % 2 = 0 then q else q + 1

/-- `a · 2 ^ e` as a pair of a numerator and a denominator. -/
def scaled (a : Nat) (e : Int) : Nat × Nat :=
  if 0 ≤ e then (a * Nat.pow 2 e.toNat, 1) else (a, Nat.pow 2 (-e).toNat)

/-- The binary64 value nearest to `num / den` (taken as `0` when `num = 0`), with the given
sign; ties go to the even significand, values at or past the overflow threshold become
infinity. -/
def nearest (negative : Bool) (num den : Nat) : Binary64 :=
  if num = 0 ∨ den = 0 then zero negative else
  -- `e` is `⌊log₂ (num / den)⌋`: the estimate from the bit lengths is exact or one too big.
  let e0 : Int := (num.log2 : Int) - den.log2
  let (n0, d0) := scaled 1 e0
  let e : Int := if num * d0 < n0 * den then e0 - 1 else e0
  let q : Int := max (e - 52) (-1074)
  let (a, b) :=
    if 0 ≤ q then (num, den * Nat.pow 2 q.toNat) else (num * Nat.pow 2 (-q).toNat, den)
  let s := roundHalfEven a b
  let (s, q) := if s = Nat.pow 2 53 then (Nat.pow 2 52, q + 1) else (s, q)
  if s = 0 then zero negative
  else if 971 < q then infinity negative
  else if s < Nat.pow 2 52 then ofFields negative 0 s
  else ofFields negative (q + 1075).toNat (s - Nat.pow 2 52)

/-- The binary64 value nearest to an integer. -/
def ofInt (i : Int) : Binary64 := nearest (i < 0) i.natAbs 1

/-- The binary64 value nearest to a natural number. -/
def ofNat (n : Nat) : Binary64 := nearest false n 1

/-- Exact comparison of two finite values `(-1)^s · m · 2^q`. -/
def orderFinite (s1 : Bool) (m1 : Nat) (q1 : Int) (s2 : Bool) (m2 : Nat) (q2 : Int) :
    Ordering :=
  let q := min q1 q2
  let a : Int := (m1 * Nat.pow 2 (q1 - q).toNat : Nat)
  let b : Int := (m2 * Nat.pow 2 (q2 - q).toNat : Nat)
  compare (if s1 then -a else a) (if s2 then -b else b)

/-- The order of the denoted extended reals, or `none` when either side is a NaN. -/
def order (x y : Binary64) : Option Ordering :=
  match x.kind, y.kind with
  | .nan, _ => none
  | _, .nan => none
  | .infinite s1, .infinite s2 =>
    some (if s1 = s2 then .eq else if s1 then .lt else .gt)
  | .infinite s1, .finite .. => some (if s1 then .lt else .gt)
  | .finite .., .infinite s2 => some (if s2 then .gt else .lt)
  | .finite s1 m1 q1, .finite s2 m2 q2 => some (orderFinite s1 m1 q1 s2 m2 q2)

/-- `x < y`; false when either side is a NaN. -/
def lt (x y : Binary64) : Bool := x.order y = some .lt

/-- `x > y`; false when either side is a NaN. -/
def gt (x y : Binary64) : Bool := x.order y = some .gt

/-- Numeric equality: false for a NaN, true for `-0` and `+0`. -/
def numEq (x y : Binary64) : Bool := x.order y = some .eq

end Binary64

end Transcode
