/-!
# Texts as UTF-16 code units

A text of this library is a finite sequence of 16-bit code units. Most texts are Unicode
scalar values written in UTF-16, but a surrogate unit without its partner, a *lone surrogate*,
is a text too, and every charset has to say what it does with one. Lean's `String` holds
scalar values only, so it cannot stand for such a text: `Text` is a list of units.

Reading a text by code point pairs a high surrogate with the low surrogate right after it and
yields every other unit on its own (`codePoints`). A unit is lone exactly when that reading
yields it on its own while it is a surrogate, and `scrub` replaces exactly those units, so the
two agree by construction: both walk the units with the same pairing rule.
-/

namespace Transcode

/-- A text: a finite sequence of UTF-16 code units, lone surrogates allowed. -/
structure Text where
  units : List UInt16
  deriving DecidableEq, Repr, Inhabited

namespace Text

/-- A high (leading) surrogate unit, `D800`–`DBFF`. -/
def isHigh (u : UInt16) : Bool := 0xD800 ≤ u && u ≤ 0xDBFF

/-- A low (trailing) surrogate unit, `DC00`–`DFFF`. -/
def isLow (u : UInt16) : Bool := 0xDC00 ≤ u && u ≤ 0xDFFF

/-- Any surrogate unit, `D800`–`DFFF`. -/
def isSurrogate (u : UInt16) : Bool := 0xD800 ≤ u && u ≤ 0xDFFF

/-- The empty text. -/
def empty : Text := ⟨[]⟩

instance : Append Text := ⟨fun a b => ⟨a.units ++ b.units⟩⟩

@[simp] theorem units_append (a b : Text) : (a ++ b).units = a.units ++ b.units := rfl

/-- Number of code units, the length a script engine reports. -/
def length (t : Text) : Nat := t.units.length

/-- The scalar value of a surrogate pair. -/
def pairValue (h l : UInt16) : Nat := 0x10000 + (h.toNat - 0xD800) * 0x400 + (l.toNat - 0xDC00)

/-- The UTF-16 units of a code point: one unit below `10000`, a surrogate pair above. -/
def unitsOf (c : Nat) : List UInt16 :=
  if c < 0x10000 then [c.toUInt16]
  else [(0xD800 + (c - 0x10000) / 0x400).toUInt16, (0xDC00 + (c - 0x10000) % 0x400).toUInt16]

/-- The text of a list of code points. -/
def ofCodePoints (cs : List Nat) : Text := ⟨cs.flatMap unitsOf⟩

/-- The text of a Lean string (which never holds a lone surrogate). -/
def ofString (s : String) : Text := ofCodePoints (s.toList.map Char.toNat)

/-- Code points in reading order: a high unit followed by a low unit is one code point, and
every other unit, a lone surrogate included, is a code point of its own. -/
def codePointsOf : List UInt16 → List Nat
  | [] => []
  | [u] => [u.toNat]
  | h :: l :: rest =>
    if isHigh h && isLow l then pairValue h l :: codePointsOf rest
    else h.toNat :: codePointsOf (l :: rest)

/-- The code points of a text (see `codePointsOf`). -/
def codePoints (t : Text) : List Nat := codePointsOf t.units

/-- Replaces each lone surrogate by the unit `r`, keeping every pair and every other unit. -/
def scrubUnits (r : UInt16) : List UInt16 → List UInt16
  | [] => []
  | [u] => [if isSurrogate u then r else u]
  | h :: l :: rest =>
    if isHigh h && isLow l then h :: l :: scrubUnits r rest
    else (if isSurrogate h then r else h) :: scrubUnits r (l :: rest)

/-- The text with each lone surrogate replaced by the unit `r`. -/
def scrub (r : UInt16) (t : Text) : Text := ⟨scrubUnits r t.units⟩

/-- Number of lone surrogates among the units. -/
def loneCountOf : List UInt16 → Nat
  | [] => 0
  | [u] => if isSurrogate u then 1 else 0
  | h :: l :: rest =>
    if isHigh h && isLow l then loneCountOf rest
    else (if isSurrogate h then 1 else 0) + loneCountOf (l :: rest)

/-- Number of lone surrogates of a text. -/
def loneCount (t : Text) : Nat := loneCountOf t.units

/-- The text with every ASCII capital letter replaced by its small letter; all other units stay. -/
def asciiLower (t : Text) : Text :=
  ⟨t.units.map fun u => if 0x41 ≤ u && u ≤ 0x5A then u + 0x20 else u⟩

/-- Whether the text is the prefix `p` followed by anything. -/
def startsWith (t p : Text) : Bool := p.units.isPrefixOf t.units

/-- The texts between the occurrences of the unit `sep` (at least one piece). -/
def splitOn (t : Text) (sep : UInt16) : List Text :=
  (go t.units []).map Text.mk
where
  go : List UInt16 → List UInt16 → List (List UInt16)
    | [], acc => [acc.reverse]
    | u :: rest, acc => if u = sep then acc.reverse :: go rest [] else go rest (u :: acc)

/-- The pieces joined with `sep` between them. -/
def intercalate (sep : Text) : List Text → Text
  | [] => empty
  | [t] => t
  | t :: rest => t ++ sep ++ intercalate sep rest

end Text

end Transcode
