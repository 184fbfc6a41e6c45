import Transcode.Text.Basic
import Transcode.Decimal.Notation
import Transcode.Calendar

/-!
# Document values

A configuration document, whether it was read from YAML or handed over as JSON, is a tree of
document values: null, booleans, numbers, texts, lists, mappings from texts to values, instants
(YAML timestamps), binary data (YAML `!!binary`), arrays of 32-bit cells and charset objects;
binary data and cells are typed arrays, which count as objects rather than lists. A value
handed over may also be undefined: a field that is not there. A mapping
keeps its fields in order, each key once. A YAML document is read into a value through its
object graph (`Graph.unfold`).

An object handed over is built by setting its fields in order, and setting `__proto__` to an
object does not add a field: it makes that object the new one's prototype, whose properties the
new object then shows as its own unless it has its own of the same name; setting it to null
leaves the object with no prototype at all (`Value.ofAssignments`). So besides plain mappings
there are objects that inherit from another value, and bare objects. `Value.property?` reads a
property along that chain; `Value.base?` names the built-in kind of object the chain ends in,
which decides the object's constructor and how it converts to text.

`Value.display` is the text a value shows when it is printed into a message: lists join their
items with commas (a null item shows as nothing), an object shows as `[object Object]`, binary
data and cells as their values joined with commas, an instant as its UTC reading, and a charset
as the text it gives itself.
-/

namespace Transcode

/-- A document value. -/
inductive Value where
  /-- No value at all: a field that is not there. -/
  | undefined
  | null
  | bool (b : Bool)
  | number (x : Binary64)
  | text (t : Text)
  | list (items : List Value)
  | mapping (fields : List (Text × Value))
  | date (ms : Int)
  | binary (bytes : List UInt8)
  | cells (xs : List Int32)
  /-- A charset object: its canonical name, the text it shows when printed, and the name of
  the kind of object it is. -/
  | charset (name : Text) (shown : Text) (instanceName : Text)
  /-- An object with its own fields whose other properties are those of its prototype
  `parent`. -/
  | inheriting (parent : Value) (fields : List (Text × Value))
  /-- An object with its own fields and no prototype. -/
  | bare (fields : List (Text × Value))
  deriving Repr, Inhabited

/-- The index a key denotes when it is the canonical decimal text of an array index (no sign,
no leading zero, below `2 ^ 32 - 1`). -/
def arrayIndex? (key : Text) : Option Nat :=
  let us := key.units
  if us.isEmpty || us.length > 10 || !us.all (fun u => 0x30 ≤ u && u ≤ 0x39) then none
  else if us.length > 1 && us.head? = some 0x30 then none
  else
    let n := us.foldl (fun acc u => acc * 10 + (u.toNat - 0x30)) 0
    if n < Nat.pow 2 32 - 1 then some n else none

namespace Value

/-- The value of a key in a field list. -/
def lookup (fields : List (Text × Value)) (key : Text) : Option Value :=
  (fields.find? (·.1 = key)).map (·.2)

/-- Bytes joined with commas. -/
def joinBytes (bs : List UInt8) : String := ",".intercalate (bs.map fun b => toString b.toNat)

mutual
/-- The text a value shows when printed into a message. -/
def display : Value → Text
  | .undefined => .ofString "undefined"
  | .null => .ofString "null"
  | .bool b => .ofString (if b then "true" else "false")
  | .number x => .ofString x.format
  | .text t => t
  | .list items => displayItems items
  | .mapping _ | .inheriting _ _ | .bare _ => .ofString "[object Object]"
  | .date ms => .ofString (Calendar.display ms)
  | .binary bs => .ofString (joinBytes bs)
  | .cells xs => .ofString (",".intercalate (xs.map fun x => toString x.toInt))
  | .charset _ shown _ => shown

/-- List items joined with commas; a null item shows as nothing. -/
def displayItems : List Value → Text
  | [] => .empty
  | [.null] => .empty
  | [v] => display v
  | .null :: rest => .ofString "," ++ displayItems rest
  | v :: rest => display v ++ .ofString "," ++ displayItems rest
end

/-- Whether a value counts as set where a flag is expected: undefined, `null`, `false`, zero,
NaN and the empty text do not; every object does. -/
def truthy : Value → Bool
  | .undefined | .null => false
  | .bool b => b
  | .number x => !(x.isNaN || x.numEq (.zero false))
  | .text t => !t.units.isEmpty
  | _ => true

/-- Whether a value is an object rather than a primitive. -/
def isObject : Value → Bool
  | .undefined | .null | .bool _ | .number _ | .text _ => false
  | _ => true

/-- The key whose assignment sets an object's prototype. -/
def protoKey : Text := .ofString "__proto__"

/-- The key that holds a length. -/
def lengthKey : Text := .ofString "length"

/-- The key of a charset's name. -/
def nameKey : Text := .ofString "name"

/-- What an object's prototype is while its fields are set: the ordinary one, none, or a
value. -/
inductive Prototype where
  | ordinary
  | none
  | value (v : Value)

/-- Sets a field: replaces its value in place when present, appends it otherwise. -/
def setField (fields : List (Text × Value)) (key : Text) (v : Value) : List (Text × Value) :=
  if fields.any (·.1 = key) then fields.map fun kv => if kv.1 = key then (key, v) else kv
  else fields ++ [(key, v)]

/-- The object that setting `entries` in order on a new plain object builds: setting
`__proto__` to an object makes it the prototype, to null leaves none, and to anything else does
nothing; every other key sets a field. -/
def ofAssignments (entries : List (Text × Value)) : Value :=
  let (proto, fields) := entries.foldl (fun (proto, fields) (k, v) =>
    if k = protoKey then
      match v with
      | .null => (Prototype.none, fields)
      | v => if v.isObject then (.value v, fields) else (proto, fields)
    else (proto, setField fields k v)) (Prototype.ordinary, [])
  match proto with
  | .ordinary => .mapping fields
  | .none => .bare fields
  | .value parent => .inheriting parent fields

/-- An element, or the length, of a sequence of `n` elements read by `at?`. -/
def elementOrLength (n : Nat) (at? : Nat → Option Value) (key : Text) : Option Value :=
  if key = lengthKey then some (.number (.ofNat n)) else (arrayIndex? key).bind at?

/-- The data property a value has under a key, its own or its prototype's: a field of an
object; an element or the length of a list or typed array; the name of a charset. Methods are
no data properties: `toString` is found only where a field of that name shadows the method. -/
def property? : Value → Text → Option Value
  | .mapping fields, k | .bare fields, k => lookup fields k
  | .inheriting parent fields, k =>
    match lookup fields k with
    | some v => some v
    | none => parent.property? k
  | .list items, k => elementOrLength items.length (items[·]?) k
  | .binary bs, k => elementOrLength bs.length (fun i => (bs[i]?).map fun b => .number (.ofNat b.toNat)) k
  | .cells xs, k => elementOrLength xs.length (fun i => (xs[i]?).map fun x => .number (.ofInt x.toInt)) k
  | .charset name _ _, k => if k = nameKey then some (.text name) else none
  | _, _ => none

/-- The fields an object holds itself. -/
def ownFields : Value → List (Text × Value)
  | .mapping fields | .inheriting _ fields | .bare fields => fields
  | _ => []

/-- The built-in kind of object a chain of prototypes ends in: plain objects, lists, the two
typed arrays, instants, or charsets of a kind. It gives an object its constructor and the way
it converts to text. -/
inductive Base where
  | object
  | list
  | bytes
  | cells
  | date
  | charset (kind : Text)
  deriving DecidableEq

/-- The name of the constructor of a kind of object. -/
def Base.constructorName : Base → Text
  | .object => .ofString "Object"
  | .list => .ofString "Array"
  | .bytes => .ofString "Uint8Array"
  | .cells => .ofString "Int32Array"
  | .date => .ofString "Date"
  | .charset kind => kind

/-- The built-in kind an object's chain of prototypes ends in; `none` for a chain that ends in
no prototype, and for a primitive. -/
def base? : Value → Option Base
  | .mapping _ => some .object
  | .inheriting parent _ => parent.base?
  | .list _ => some .list
  | .binary _ => some .bytes
  | .cells _ => some .cells
  | .date _ => some .date
  | .charset _ _ kind => some (.charset kind)
  | _ => none

mutual
/-- How deeply a value nests: one for a value without parts. -/
def height : Value → Nat
  | .list items => heightItems items + 1
  | .mapping fields | .bare fields => heightFields fields + 1
  | .inheriting parent fields => max parent.height (heightFields fields) + 1
  | _ => 1

/-- The greatest height of the items of a list. -/
def heightItems : List Value → Nat
  | [] => 0
  | v :: rest => max v.height (heightItems rest)

/-- The greatest height of the values of fields. -/
def heightFields : List (Text × Value) → Nat
  | [] => 0
  | (_, v) :: rest => max v.height (heightFields rest)
end

end Value

end Transcode
