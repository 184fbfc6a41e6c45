import Transcode.Binary64.Basic

/-!
# Shortest decimal digits of a binary64 value

A positive finite value `x = m · 2 ^ q` is rounded to from every real of an interval around it:
half-way to each neighbour, the ends belonging to the interval when `m` is even (a tie goes to
the even significand). The shortest decimal for `x` is the decimal with the fewest significant
digits inside that interval; of two such decimals the one nearer to `x`, and of two equally
near the one with the even last digit.

`shortest` finds it by trying `k = 1, 2, …, 17` significant digits. With `n` the decimal
exponent of `x` (`10 ^ (n - 1) ≤ x < 10 ^ n`), the decimals of `k` digits nearest to `x` are
`⌊x / 10 ^ (n - k)⌋` and the next one up, and if any `k`-digit decimal lies in the interval then
one of these two does, since the interval holds `x` and is convex. Every test is exact `Nat`
arithmetic on cross-multiplied powers of two and ten.
-/

namespace Transcode

namespace Decimal

/-- Compares `a · 2 ^ p` with `b · 10 ^ r`, exactly. -/
def compareScaled (a : Nat) (p : Int) (b : Nat) (r : Int) : Ordering :=
  compare (a * Nat.pow 2 p.toNat * Nat.pow 10 (-r).toNat)
    (b * Nat.pow 10 r.toNat * Nat.pow 2 (-p).toNat)

/-- `⌊a · 2 ^ p / 10 ^ r⌋`. -/
def floorScaled (a : Nat) (p : Int) (r : Int) : Nat :=
  (a * Nat.pow 2 p.toNat * Nat.pow 10 (-r).toNat) / (Nat.pow 10 r.toNat * Nat.pow 2 (-p).toNat)

/-- The decimal exponent `n` of `m · 2 ^ q` (for `m > 0`): `10 ^ (n - 1) ≤ m · 2 ^ q < 10 ^ n`.
The estimate from the bit length is off by at most one, and each step of `settle` moves it
one toward the answer. -/
def exponentOf (m : Nat) (q : Int) : Int :=
  let bits : Int := (m.log2 : Int) + q
  settle 4 (bits * 1233 / 4096 + 1)
where
  settle : Nat → Int → Int
    | 0, n => n
    | fuel + 1, n =>
      if compareScaled m q 1 n != .lt then settle fuel (n + 1)
      else if compareScaled m q 1 (n - 1) == .lt then settle fuel (n - 1)
      else n

/-- A decimal `digits · 10 ^ (exponent - count)` whose `digits` has exactly `count` digits. -/
structure Digits where
  digits : Nat
  count : Nat
  exponent : Int
  deriving DecidableEq, Repr

/-- The rounding interval of `m · 2 ^ q`, scaled by `2 ^ (2 - q)`: the value is `4m`, the
lower end `4m - 2` (or `4m - 1` when the gap below is half as wide, at a power of two above
the subnormals), the upper end `4m + 2`. The ends belong to it when `m` is even. -/
structure Interval where
  low : Nat
  value : Nat
  high : Nat
  closed : Bool
  scale : Int

/-- Whether `s · 10 ^ g` lies in the interval. -/
def Interval.holds (iv : Interval) (s : Nat) (g : Int) : Bool :=
  let lo := compareScaled iv.low iv.scale s g
  let hi := compareScaled iv.high iv.scale s g
  (lo == .lt || (iv.closed && lo == .eq)) && (hi == .gt || (iv.closed && hi == .eq))

/-- Of `s` and `s + 1` (times `10 ^ g`), the one nearer to the value; a tie goes to the even. -/
def Interval.nearer (iv : Interval) (s : Nat) (g : Int) : Nat :=
  match compareScaled (2 * iv.value) iv.scale (2 * s + 1) g with
  | .lt => s
  | .gt => s + 1
  | .eq => if s % 2 = 0 then s else s + 1

/-- The `k`-digit decimal in the interval nearest to the value, if there is one; `n` is the
decimal exponent of the value. At `last` the nearest `k`-digit decimal is taken anyway. -/
def Interval.pick (iv : Interval) (n : Int) (k : Nat) (last : Bool) : Option Digits :=
  let g := n - k
  let s := floorScaled iv.value iv.scale g
  let okLow := iv.holds s g
  let okHigh := iv.holds (s + 1) g
  let chosen :=
    if okLow && okHigh then some (iv.nearer s g)
    else if okLow then some s
    else if okHigh then some (s + 1)
    else if last then some (iv.nearer s g)
    else none
  chosen.map fun s => if s = Nat.pow 10 k then ⟨1, 1, n + 1⟩ else ⟨s, k, n⟩

/-- Tries `k, k + 1, …, 17` digits. -/
def Interval.search (iv : Interval) (n : Int) (k : Nat) : Nat → Digits
  | 0 => ⟨0, 1, 1⟩
  | fuel + 1 =>
    match iv.pick n k (17 ≤ k) with
    | some d => d
    | none => iv.search n (k + 1) fuel

/-- The shortest decimal of the positive value `m · 2 ^ q` (`m > 0`); `narrowBelow` says
that the gap to the next value below is half the gap above. -/
def shortest (m : Nat) (q : Int) (narrowBelow : Bool) : Digits :=
  let iv : Interval :=
    { low := if narrowBelow then 4 * m - 1 else 4 * m - 2
      value := 4 * m
      high := 4 * m + 2
      closed := m % 2 = 0
      scale := q - 2 }
  iv.search (exponentOf m q) 1 17

end Decimal

namespace Binary64

/-- The shortest decimal of a finite nonzero value's magnitude, or `none` for zero, an
infinity or a NaN. -/
def digits? (x : Binary64) : Option Decimal.Digits :=
  match x.kind with
  | .finite _ m q =>
    if m = 0 then none else some (Decimal.shortest m q (m = Nat.pow 2 52 && 1 < x.biased))
  | _ => none

end Binary64

end Transcode
