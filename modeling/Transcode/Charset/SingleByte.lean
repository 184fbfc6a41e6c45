import Transcode.Text.Basic

/-!
# Single-byte charsets

A single-byte charset with limit `L` maps the code points `0..L` to the bytes of the same value.
Encoding reads the text by code point (a surrogate pair is one code point, a lone surrogate is
one of its own) and writes one byte per code point: the code point itself when it is at most
`L`, and `?` (`3F`) otherwise. Decoding writes one code unit per byte: the byte when it is at
most `L`, and `U+FFFD` otherwise.
-/

namespace Transcode

namespace SingleByte

/-- The byte of one code point: itself up to the limit, `?` above. -/
def encodePoint (limit : Nat) (c : Nat) : UInt8 := if c ≤ limit then c.toUInt8 else 0x3F

/-- One byte per code point. -/
def encode (limit : Nat) (t : Text) : List UInt8 := t.codePoints.map (encodePoint limit)

/-- Number of code points above the limit, each written as `?`. -/
def replacedCount (limit : Nat) (t : Text) : Nat := t.codePoints.countP (limit < ·)

/-- The code unit of one byte: itself up to the limit, `U+FFFD` above. -/
def decodeByte (limit : Nat) (b : UInt8) : UInt16 :=
  if b.toNat ≤ limit then b.toNat.toUInt16 else 0xFFFD

/-- One code unit per byte. -/
def decode (limit : Nat) (bs : List UInt8) : Text := ⟨bs.map (decodeByte limit)⟩

end SingleByte

end Transcode
