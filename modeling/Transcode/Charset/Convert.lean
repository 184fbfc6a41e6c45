import Transcode.Charset.Basic
import Transcode.Binary64.Integer

/-!
# Converting between texts and bytes

`getBytes` encodes a text in a charset given by name or as a charset; `getString` decodes bytes.
Bytes come either as an 8-bit array, used as it is, or as an array of numbers, each read
through a mask of its low eight bits (`Binary64.maskByte`), so `-1` is `FF` and `256` is `00`.
Both check that their arguments are present before they look the charset up.
-/

namespace Transcode

/-- Bytes given to a decoder: 8-bit cells, or numbers masked to their low byte. -/
inductive ByteSource where
  | bytes (bs : List UInt8)
  | numbers (xs : List Binary64)

/-- The bytes of a byte source. -/
def ByteSource.toBytes : ByteSource → List UInt8
  | .bytes bs => bs
  | .numbers xs => xs.map Binary64.maskByte

/-- The bytes of a text in a charset; unmappable characters become `?`. -/
def getBytes (contents : Option Text) (charset : Option CharsetSpec) :
    Except Fault (List UInt8) := do
  let t ← Check.present contents (.ofString "getBytes(null, ...)")
  let spec ← Check.present charset (.ofString "getBytes(..., null)")
  let c ← resolveCharset spec
  return (c.encodeWithReport t).1

/-- The text of bytes in a charset; malformed input becomes `U+FFFD`. -/
def getString (content : Option ByteSource) (charset : Option CharsetSpec) :
    Except Fault Text := do
  let src ← Check.present content (.ofString "getString(null, ...)")
  let spec ← Check.present charset (.ofString "getString(..., null)")
  let c ← resolveCharset spec
  return c.decode src.toBytes

/-- Whether a text has no code units. -/
def isEmpty (contents : Option Text) : Except Fault Bool := do
  let t ← Check.present contents (.ofString "isEmpty(null)")
  return t.length = 0

end Transcode
