import Transcode.Fault
import Transcode.Decimal.Numeric
import Transcode.Binary64.Integer

/-!
# Values converted to text, and values of the wrong type described

A value handed over as data converts to text as a string conversion does. A primitive shows its
text; a list joins its items with commas, null and undefined items showing as nothing; a plain
object shows as `[object Object]`. An object's fields are data, never methods: a field named
`toString` shadows the method that would convert it, and the conversion then fails
(`Fault.noText`). An object that inherits converts by the method of the kind its prototypes end
in: a plain object's, a list's (which joins the object's elements up to its `length`, unless a
`join` field shadows joining), a typed array's or an instant's (which refuse an object that is
not one of theirs, `Fault.notReceiver`), or a charset's (which gives its name); a bare object
has no method and no text.

An argument of the wrong type is described by `Value.received`: `undefined` and `null` by
name, a boolean, number or text by its type and value (`type number (5)`, with negative zero as
`-0`), and an object as an instance of its constructor (`an instance of Array`). A field named
`constructor`, the object's own or inherited, stands for its constructor: a false one leaves the
object described by its shape (`[Object]`, or `{}` when it has no fields of its own), an object
is asked for its `name`, which must convert to text, and any other value has no fields to ask,
which is a fault of its own. An object whose prototypes end in none has no constructor and is
described as `[Object: null prototype]`.
-/

namespace Transcode

namespace Value

/-- The most units of a text a description shows; a longer one is cut to `textShown` units. -/
def textShownMax : Nat := 28

/-- The units of a long text a description shows before `...`. -/
def textShown : Nat := 25

/-- A unit as four small hexadecimal digits. -/
def hex4 (u : UInt16) : Text :=
  let digit (n : Nat) : UInt16 := if n < 10 then 0x30 + n.toUInt16 else 0x57 + n.toUInt16
  ⟨[digit (u.toNat / 4096 % 16), digit (u.toNat / 256 % 16), digit (u.toNat / 16 % 16),
    digit (u.toNat % 16)]⟩

/-- The units of a text inside double quotes, escaped: quote, backslash and control characters
by escapes, and a surrogate that pairs with no neighbour by its code. -/
def escapedUnits : List UInt16 → Text
  | [] => .empty
  | h :: l :: rest =>
    if Text.isHigh h && Text.isLow l then ⟨[h, l]⟩ ++ escapedUnits rest
    else escapedUnit h ++ escapedUnits (l :: rest)
  | [u] => escapedUnit u
where
  /-- One unit that pairs with neither neighbour. -/
  escapedUnit (u : UInt16) : Text :=
    if u = 0x22 then .ofString "\\\""
    else if u = 0x5C then .ofString "\\\\"
    else if u = 0x08 then .ofString "\\b"
    else if u = 0x0C then .ofString "\\f"
    else if u = 0x0A then .ofString "\\n"
    else if u = 0x0D then .ofString "\\r"
    else if u = 0x09 then .ofString "\\t"
    else if u < 0x20 || Text.isSurrogate u then .ofString "\\u" ++ hex4 u
    else ⟨[u]⟩

/-- A text as a description shows it: cut when long, then single-quoted, or double-quoted and
escaped when it holds a single quote. -/
def quotedText (t : Text) : Text :=
  let shown : Text :=
    if t.length > textShownMax then ⟨t.units.take textShown⟩ ++ .ofString "..." else t
  if shown.units.contains 0x27 then .ofString "\"" ++ escapedUnits shown.units ++ .ofString "\""
  else .ofString "'" ++ shown ++ .ofString "'"

/-- The key whose presence as a field leaves an object without a text. -/
def toStringKey : Text := .ofString "toString"

/-- The key of the method a list is joined by. -/
def joinKey : Text := .ofString "join"

/-- The key of the method an object gives its primitive value by. -/
def valueOfKey : Text := .ofString "valueOf"

/-- The key of the field that stands for an object's constructor. -/
def constructorKey : Text := .ofString "constructor"

/-- The longest text there can be; joining more elements than that fails. -/
def maxTextLength : Nat := Nat.pow 2 29 - 24

/-- The length a value gives an object that is joined like a list: its number truncated, from
zero up to `2 ^ 53 - 1` (NaN and what is below one give zero); an object counts by the number
its text shows. -/
def lengthOf (v : Value) : Nat :=
  let x : Binary64 := match v with
    | .number x => x
    | .text t => t.toNumber
    | .bool b => if b then .ofNat 1 else .zero false
    | .null => .zero false
    | .undefined => .nan
    | v => v.display.toNumber
  if x.isNaN || x.isNegative then 0
  else if !x.isFinite then Nat.pow 2 53 - 1
  else min x.truncate.toNat (Nat.pow 2 53 - 1)

/-- The text of a value, converting nested values with at most `fuel` levels (its height is
enough). -/
def toTextWithin : Nat → Value → Except Fault Text
  | 0, _ => .error .noText
  | fuel + 1, v =>
    let item (x : Value) : Except Fault Text := match x with
      | .null | .undefined => .ok .empty
      | x => toTextWithin fuel x
    let join (xs : List Value) : Except Fault Text :=
      (Text.intercalate (.ofString ",") ·) <$> xs.mapM item
    match v with
    | .list items => join items
    | .mapping fields =>
      if (lookup fields toStringKey).isSome then .error .noText
      else .ok (.ofString "[object Object]")
    | .bare _ => .error .noText
    | .inheriting parent fields =>
      let v := Value.inheriting parent fields
      if (v.property? toStringKey).isSome then
        if v.base? = some .date && (v.property? valueOfKey).isNone then
          .error (.notReceiver "Date object")
        else .error .noText
      else
        match v.base? with
        | none => .error .noText
        | some .object => .ok (.ofString "[object Object]")
        | some .list =>
          if (v.property? joinKey).isSome then .ok (.ofString "[object Object]")
          else
            let n := lengthOf ((v.property? lengthKey).getD .undefined)
            if n > maxTextLength + 1 then .error .textLength
            else join ((List.range n).map fun i => (v.property? (.ofString (toString i))).getD .undefined)
        | some .bytes | some .cells =>
          if (v.property? joinKey).isSome then .ok (.ofString "[object Object]")
          else .error (.notReceiver "typed array")
        | some .date => .error (.notReceiver "Date object")
        | some (.charset _) =>
          match v.property? nameKey with
          | some n => if n.isObject then .error .noText else toTextWithin fuel n
          | none => .ok (.ofString "undefined")
    | v => .ok v.display

/-- The text of a value under string conversion. -/
def toText (v : Value) : Except Fault Text := toTextWithin (v.height + 1) v

/-- The shape of an object as a one-level view shows it: its constructor's name in brackets, or
an empty pair of braces (after the name, unless the object is plain) when it has no fields of its
own; an object without prototypes says so. -/
def shape (v : Value) : Text :=
  let own := !v.ownFields.isEmpty
  match v.base? with
  | none => .ofString (if own then "[Object: null prototype]" else "[Object: null prototype] {}")
  | some b =>
    if own then .ofString "[" ++ b.constructorName ++ .ofString "]"
    else if b = .object then .ofString "{}"
    else b.constructorName ++ .ofString " {}"

/-- The description of a text: cut when long, then single-quoted, or double-quoted and escaped
when it holds a single quote. -/
def describeText (t : Text) : Text :=
  .ofString "type string (" ++ quotedText t ++ .ofString ")"

/-- How a type fault describes a value of the wrong type. Fails when the value's constructor
has no name to show. -/
def received : Value → Except Fault Text
  | .undefined => .ok (.ofString "undefined")
  | .null => .ok (.ofString "null")
  | .bool b => .ok (.ofString (if b then "type boolean (true)" else "type boolean (false)"))
  | .number x =>
    .ok (.ofString ("type number (" ++ (if x.bits = (Binary64.zero true).bits then "-0" else x.format) ++ ")"))
  | .text t => .ok (describeText t)
  | v =>
    match v.property? constructorKey with
    | some c =>
      if !c.truthy then .ok v.shape
      else if !c.isObject then .error (.noProperties c.display)
      else
        match c.property? nameKey with
        | some n => (Text.ofString "an instance of " ++ ·) <$> n.toText
        | none => .ok v.shape
    | none =>
      match v.base? with
      | some b => .ok (.ofString "an instance of " ++ b.constructorName)
      | none => .ok v.shape

/-- The text an argument holds; any other value is a type fault naming the parameter. -/
def requireText (param : String) : Value → Except Fault Text
  | .text t => .ok t
  | v => do throw (.argumentType param (← v.received))

end Value

namespace Fault

/-- The text of a possibly absent value in a message. -/
def showActual : Option Value → Except Fault Text
  | some v => v.toText
  | none => .ok (.ofString "undefined")

/-- A range fault; without a message it says `<param> is out of range: <value>`, and making it
fails when the value has no text. -/
def outOfRange (param : Text) (actual : Option Value) (message : Option Text) : Except Fault Fault :=
  match message with
  | some m => .ok (.argumentRange param actual m)
  | none => do
    let t ← showActual actual
    return .argumentRange param actual (param ++ .ofString " is out of range: " ++ t)

end Fault

end Transcode
