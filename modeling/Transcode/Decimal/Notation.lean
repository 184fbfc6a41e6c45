import Transcode.Decimal.Shortest

/-!
# Writing numbers

A number is written with its shortest decimal digits (`Transcode.Decimal.shortest`). Where the
digits go is a matter of notation, kept in one record: `Notation.standard` writes the decimal
exponent `n` (value `0.d₁d₂… · 10 ^ n`) positionally when `-6 < n ≤ 21` and with an exponent
part `e+N` or `e-N` otherwise; zero is `0` whatever its sign, and the non-finite values are
words. So `1e21` is written `1e+21`, `1e20` is `100000000000000000000`, `1.5e-6` is `0.0000015`
and `1e-7` is `1e-7`.
-/

namespace Transcode

namespace Decimal

/-- The decisions of a number notation. Digits count `k`, decimal exponent `n`. -/
structure Notation where
  /-- Exponents with `minFixed < n ≤ maxFixed` are written positionally. -/
  minFixed : Int
  maxFixed : Int
  exponentMark : String
  /-- Whether a nonnegative exponent part carries a `+`. -/
  plusSign : Bool
  /-- Whether negative zero is written with a minus sign. -/
  signedZero : Bool
  nanText : String
  infinityText : String

/-- Numbers in messages and answers: positional for `-6 < n ≤ 21`, otherwise `d.ddde±N`;
`0` for both zeros; `NaN` and `Infinity`. -/
def Notation.standard : Notation :=
  { minFixed := -6, maxFixed := 21, exponentMark := "e", plusSign := true, signedZero := false,
    nanText := "NaN", infinityText := "Infinity" }

/-- `k` zeros. -/
def zeros (k : Nat) : String := String.ofList (List.replicate k '0')

/-- The digits of a decimal laid out by the notation, without a sign. -/
def Notation.layout (nt : Notation) (d : Digits) : String :=
  let s := (toString d.digits).toList
  let k : Int := d.count
  let n := d.exponent
  if k ≤ n ∧ n ≤ nt.maxFixed then String.ofList s ++ zeros (n - k).toNat
  else if 0 < n ∧ n ≤ nt.maxFixed then
    String.ofList (s.take n.toNat) ++ "." ++ String.ofList (s.drop n.toNat)
  else if nt.minFixed < n ∧ n ≤ 0 then "0." ++ zeros (-n).toNat ++ String.ofList s
  else
    let e := n - 1
    let mantissa :=
      if d.count = 1 then String.ofList s
      else String.ofList (s.take 1) ++ "." ++ String.ofList (s.drop 1)
    let sign := if 0 ≤ e then (if nt.plusSign then "+" else "") else "-"
    mantissa ++ nt.exponentMark ++ sign ++ toString e.natAbs

/-- A binary64 value in the notation. -/
def Notation.write (nt : Notation) (x : Binary64) : String :=
  match x.kind with
  | .nan => nt.nanText
  | .infinite negative => (if negative then "-" else "") ++ nt.infinityText
  | .finite negative m _ =>
    if m = 0 then (if negative && nt.signedZero then "-0" else "0")
    else
      match x.digits? with
      | some d => (if negative then "-" else "") ++ nt.layout d
      | none => "0"

end Decimal

namespace Binary64

/-- The standard text of a number (`Decimal.Notation.standard`). -/
def format (x : Binary64) : String := Decimal.Notation.standard.write x

end Binary64

end Transcode
