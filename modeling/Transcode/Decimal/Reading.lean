import Transcode.Binary64.Basic

/-!
# Reading decimals

A decimal literal `±digits.fraction e±exponent` denotes the rational `digits · 10 ^ e`; it is
read as the binary64 value nearest to that rational (`Binary64.nearest`). Literals far outside
the binary64 range are decided without computing the rational: one of at least `10 ^ 310` is
infinite, and one below `10 ^ -325`, less than half the smallest subnormal, is zero.

`Decimal.read?` accepts the literal grammar shared by data formats: an optional sign, digits
with an optional fraction (or a fraction alone), and an optional exponent with optional sign.
-/

namespace Transcode

namespace Binary64

/-- The binary64 value nearest to `digits · 10 ^ e`, with the given sign. -/
def ofDecimal (negative : Bool) (digits : Nat) (e : Int) : Binary64 :=
  if digits = 0 then zero negative else
  let size : Int := (toString digits).length
  if 310 < size + e then infinity negative
  else if size + e < -325 then zero negative
  else if 0 ≤ e then nearest negative (digits * Nat.pow 10 e.toNat) 1
  else nearest negative digits (Nat.pow 10 (-e).toNat)

end Binary64

namespace Decimal

/-- Splits off the leading decimal digits, with their value. -/
def takeDigits : List Char → List Char × List Char
  | c :: rest =>
    if c.isDigit then let (ds, r) := takeDigits rest; (c :: ds, r) else ([], c :: rest)
  | [] => ([], [])

/-- The value of a list of decimal digits. -/
def digitsValue (ds : List Char) : Nat :=
  ds.foldl (fun acc c => acc * 10 + (c.toNat - '0'.toNat)) 0

/-- Reads a whole decimal literal: `[+-] (d+ [. d*] | . d+) [(e|E) [+-] d+]`. -/
def read? (s : List Char) : Option Binary64 :=
  let (negative, s) :=
    match s with
    | '-' :: r => (true, r)
    | '+' :: r => (false, r)
    | r => (false, r)
  let (whole, s) := takeDigits s
  let (frac, s, hasPoint) :=
    match s with
    | '.' :: r => let (f, r) := takeDigits r; (f, r, true)
    | r => ([], r, false)
  if whole.isEmpty && frac.isEmpty then none else
  if whole.isEmpty && !hasPoint then none else
  let exp? : Option Int :=
    match s with
    | [] => some 0
    | c :: r =>
      if c = 'e' || c = 'E' then
        let (eneg, r) :=
          match r with
          | '-' :: r => (true, r)
          | '+' :: r => (false, r)
          | r => (false, r)
        let (ds, r) := takeDigits r
        if ds.isEmpty || !r.isEmpty then none
        else
          let v : Int := digitsValue ds
          some (if eneg then -v else v)
      else none
  exp?.map fun e => Binary64.ofDecimal negative (digitsValue (whole ++ frac)) (e - frac.length)

end Decimal

end Transcode
