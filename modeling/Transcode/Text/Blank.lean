import Transcode.Text.Basic

/-!
# Blank units and trimming

The blanks that trimming removes are the white space and line terminator characters of the
script language standard: tab, line feed, vertical tab, form feed, carriage return, space,
no-break space, the byte order mark, line and paragraph separator, and the Unicode space
separators (`Zs`). The zero width space `200B` is a format character, not a space, and stays.
Every blank lies in the basic plane, so a blank is always a single code unit and trimming can
work on units.
-/

namespace Transcode

namespace Text

/-- The blank code units: white space and line terminators. -/
def isBlank (u : UInt16) : Bool :=
  u = 0x09 || u = 0x0A || u = 0x0B || u = 0x0C || u = 0x0D || u = 0x20 || u = 0xA0 ||
  u = 0x1680 || (0x2000 ≤ u && u ≤ 0x200A) || u = 0x2028 || u = 0x2029 || u = 0x202F ||
  u = 0x205F || u = 0x3000 || u = 0xFEFF

/-- The text without its leading and trailing blanks. -/
def trim (t : Text) : Text :=
  ⟨((t.units.dropWhile isBlank).reverse.dropWhile isBlank).reverse⟩

example : (ofString "  ﻿a b　\n").trim = ofString "a b" := by decide
example : (ofString "​a").trim = ofString "​a" := by decide

end Text

end Transcode
