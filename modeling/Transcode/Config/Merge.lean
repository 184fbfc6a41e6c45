import Transcode.Graph
import Transcode.Decimal.Numeric
import Transcode.Binary64.Integer

/-!
# Deep merge of configuration layers

Configuration files are layered: the user's record is merged over the defaults record, key by
key and level by level, into a new object graph whose root is an empty mapping. A layer's
values live in its document's graph; the target never refers into a layer, so every collection
it holds is its own. Instants are the exception: the target holds a layer's instants
themselves, not copies. Each instant of a layer enters the target once, as a node that every
place holding that instant shares, and a later layer that merges into it changes it at all of
those places.

Merging a source item under a key of a target node follows these rules, by the kind of the
source:

* a scalar replaces what was there, so a `null` overrides too; an instant replaces it by that
  very instant;
* a list merges into the list in place item by item (index by index, keeping the longer tail);
  binary data in place first becomes a new list of its byte values, and a mapping or instant
  that looks like a list (a whole-number `length`) a new list of its items; anything else is
  replaced by a new list;
* binary data merges into a list in place the same way, its bytes as numbers; binary data or an
  object that looks like a list in place becomes a new list as above, with the source's bytes
  over it; anything else is replaced by a copy of the source;
* a mapping merges field by field into the object in place, whatever its kind; anything else is
  replaced by a new mapping built from the source.

A source field named `__proto__` whose value is not a scalar is never merged.

A source node that is being merged already (it contains itself) is not merged again: the key
takes the target node it is being merged into, so a cycle in a layer becomes a cycle in the
target. The nodes being merged form a stack, and a node enters it at most once, so the depth
of a merge is bounded by the number of nodes of its layer.

Into a list, an index key sets an element (a gap before it fills with empty places), `length`
sets the length, and other keys become named fields; into binary data, index keys and the
fields of its kind are not kept.

A list's length is set from the number its value converts to (`Graph.toNumber`), which must be
a whole number up to `2 ^ 32 - 1`; a mapping that looks like a longer list cannot be copied into
one either. Converting an object reads it as text, as a script would: an object whose
`toString` field is data rather than a method has no primitive value, and a list whose `join`
field is data shows as `[object Array]`.
-/

namespace Transcode

namespace Graph

/-- Why a merge fails. -/
inductive MergeError where
  /-- A list would get a length no list can have. -/
  | listLength
  /-- An object that had to be converted has no primitive value. -/
  | noPrimitive
  deriving DecidableEq, Repr

/-- The name of the kind of failure. -/
def MergeError.name : MergeError → String
  | .listLength => "RangeError"
  | .noPrimitive => "TypeError"

/-- The message of the failure. -/
def MergeError.message : MergeError → Text
  | .listLength => .ofString "Invalid array length"
  | .noPrimitive => .ofString "Cannot convert object to primitive value"

/-- Whether an item is a scalar: null, a boolean, a number or a text. -/
def Item.isScalar : Item → Bool
  | .null | .bool _ | .number _ | .text _ => true
  | _ => false

/-- The key whose non-scalar values are never merged. -/
def protoKey : Text := .ofString "__proto__"

/-- The key that holds the length of a list. -/
def lengthKey : Text := .ofString "length"

/-- The field an object is converted to text through. -/
def toStringKey : Text := .ofString "toString"

/-- The field an object is converted to a number through first. -/
def valueOfKey : Text := .ofString "valueOf"

/-- The field a list is joined through when it is converted to text. -/
def joinKey : Text := .ofString "join"

/-- The fields binary data shows through its kind (its length and the buffer it lies in); they
cannot be set. -/
def bytesAccessors : List Text := ["length", "byteLength", "byteOffset", "buffer"].map .ofString

/-- The longest a list may be. -/
def maxListLength : Nat := Nat.pow 2 32 - 1

/-- The length a number gives a list: a whole number (either zero) up to `maxListLength`. -/
def listLength? (x : Binary64) : Option Nat :=
  if x.isInteger && !x.isNegative && x.truncate.toNat ≤ maxListLength then some x.truncate.toNat
  else none

/-- The item a node holds under a key: a field of a mapping or instant, an element or named
field of a list, a byte of binary data as a number, or a named field of binary data. -/
def itemAt? (g : Graph) (id : Nat) (key : Text) : Option Item :=
  match g.node? id with
  | some (.mapping fields) => lookup fields key
  | some (.list items _ fields) =>
    match arrayIndex? key with
    | some i => items[i]?
    | none => lookup fields key
  | some (.bytes data fields) =>
    match arrayIndex? key with
    | some i => (data[i]?).map fun b => .number (.ofNat b.toNat)
    | none => lookup fields key
  | some (.date _ fields) => lookup fields key
  | none => none

/-- The text an item converts to. A list joins its items with commas, a null item, an empty
place and a list already being joined showing as nothing; a mapping shows as
`[object Object]`, binary data as its bytes joined with commas, and an instant as its reading
(or, when its `toString` field is data, as its milliseconds). An object whose `toString` field
is data has no text otherwise, and one whose `join` field is data shows the name of its kind. -/
def text (g : Graph) : Nat → List Nat → Item → Except MergeError Text
  | _, _, .null => .ok (.ofString "null")
  | _, _, .bool b => .ok (.ofString (if b then "true" else "false"))
  | _, _, .number x => .ok (.ofString x.format)
  | _, _, .text t => .ok t
  | 0, _, .ref _ => .ok .empty
  | fuel + 1, joining, .ref id =>
    match g.node? id with
    | some (.list items holes fields) =>
      if hasField fields toStringKey then .error .noPrimitive
      else if hasField fields joinKey then .ok (.ofString "[object Array]")
      else if joining.contains id then .ok .empty
      else do
        let texts ← items.mapM fun i => match i with
          | .null => pure .empty
          | i => text g fuel (id :: joining) i
        pure (Text.intercalate (.ofString ",") (texts ++ List.replicate holes .empty))
    | some (.mapping fields) =>
      if hasField fields toStringKey then .error .noPrimitive
      else .ok (.ofString "[object Object]")
    | some (.bytes data fields) =>
      if hasField fields toStringKey then .error .noPrimitive
      else if hasField fields joinKey then .ok (.ofString "[object Uint8Array]")
      else .ok (.ofString (Value.joinBytes data))
    | some (.date ms fields) =>
      if !hasField fields toStringKey then .ok (.ofString (Calendar.display ms))
      else if hasField fields valueOfKey then .error .noPrimitive
      else .ok (.ofString (Binary64.ofInt ms).format)
    | none => .ok .empty

/-- The number an item converts to: null is zero, a boolean zero or one, a text the number it
denotes, an instant its milliseconds (unless its `valueOf` field is data: then the number its
text denotes), and any other node the number its text denotes. -/
def toNumber (g : Graph) (v : Item) : Except MergeError Binary64 :=
  match v with
  | .null => .ok (.zero false)
  | .bool b => .ok (if b then .ofNat 1 else .zero false)
  | .number x => .ok x
  | .text t => .ok t.toNumber
  | .ref id =>
    match g.node? id with
    | some (.date ms fields) =>
      if !hasField fields valueOfKey then .ok (.ofInt ms)
      else if hasField fields toStringKey then .error .noPrimitive
      else .ok (Text.ofString (Calendar.display ms)).toNumber
    | _ => (g.text (g.nodes.size + 1) [] v).map Text.toNumber

/-- A list with item `v` at index `i`: an existing item is replaced; past the items, the gap
fills with empty places and the empty places after it stay. -/
def setItem (items : List Item) (holes i : Nat) (v : Item) : List Item × Nat :=
  if i < items.length then (items.set i v, holes)
  else (items ++ List.replicate (i - items.length) .null ++ [v], items.length + holes - (i + 1))

/-- A list cut or grown to length `n`: a longer length adds empty places. -/
def withLength (items : List Item) (n : Nat) : List Item × Nat :=
  if n ≤ items.length then (items.take n, 0) else (items, n - items.length)

/-- Stores an item under a key of a node. A list takes an index key as an item, `length` as its
new length (failing when the item converts to no list length), and other keys as named fields;
binary data takes named keys other than its accessors. -/
def assign (g : Graph) (id : Nat) (key : Text) (v : Item) : Except MergeError Graph :=
  match g.node? id with
  | some (.list items holes fields) =>
    if key = lengthKey then do
      let some n := listLength? (← g.toNumber v) | throw .listLength
      let (items, holes) := withLength items n
      pure (g.update id fun _ => .list items holes fields)
    else
      match arrayIndex? key with
      | some i =>
        let (items, holes) := setItem items holes i v
        .ok (g.update id fun _ => .list items holes fields)
      | none => .ok (g.update id fun _ => .list items holes (setField fields key v))
  | some (.mapping fields) => .ok (g.update id fun _ => .mapping (setField fields key v))
  | some (.bytes data fields) =>
    if (arrayIndex? key).isSome || bytesAccessors.contains key then .ok g
    else .ok (g.update id fun _ => .bytes data (setField fields key v))
  | some (.date ms fields) => .ok (g.update id fun _ => .date ms (setField fields key v))
  | none => .ok g

/-- The length of an object that looks like a list: its `length` field, when that is a whole
number from zero up to `2 ^ 53 - 1`. -/
def arrayLikeLength? (fields : List (Text × Item)) : Option Nat :=
  match lookup fields lengthKey with
  | some (.number x) => if x.isSafeInteger && !x.isNegative then some x.truncate.toNat else none
  | _ => none

/-- The items of a list copied from an object that looks like one: its fields under the
indices below `n`, null where it has none. -/
def arrayLikeItems (fields : List (Text × Item)) (n : Nat) : List Item :=
  (List.range n).map fun i => (lookup fields (.ofString (toString i))).getD .null

/-- The named fields of a node that may look like a list: a mapping's or an instant's. -/
def namedFields? : Option Node → Option (List (Text × Item))
  | some (.mapping fields) | some (.date _ fields) => some fields
  | _ => none

/-- Where a source node goes: merged into a target node, or copied as a new node without
merging. -/
inductive Placement where
  | into (id : Nat)
  | copy (n : Node)

/-- The list a list merges into, given the node in place: that list itself, or a new list
holding the bytes of binary data or the items of an object that looks like a list, or a new
empty list. Fails when that object is longer than a list may be. -/
def listTarget (g : Graph) (e : Nat) : Except MergeError (Graph × Placement) :=
  let fresh (items : List Item) := let (g, n) := g.alloc (.ofItems items); (g, Placement.into n)
  match g.node? e with
  | some (.list _ _ _) => .ok (g, .into e)
  | some (.bytes data _) => .ok (fresh (byteItems data))
  | node =>
    match (namedFields? node).bind arrayLikeLength? with
    | some n =>
      if n ≤ maxListLength then .ok (fresh (arrayLikeItems ((namedFields? node).getD []) n))
      else .error .listLength
    | none => .ok (fresh [])

/-- Whether a node is a list, binary data, or an object that looks like a list. -/
def listLike (g : Graph) (e : Nat) : Bool :=
  match g.node? e with
  | some (.list _ _ _) | some (.bytes _ _) => true
  | node => ((namedFields? node).bind arrayLikeLength?).isSome

/-- Where a source collection goes, given the item in place under its key; new target nodes
are added to the graph. -/
def placement (g : Graph) (inPlace : Option Item) : Node → Except MergeError (Graph × Placement)
  | .list _ _ _ =>
    match inPlace with
    | some (.ref e) => listTarget g e
    | _ => let (g, n) := g.alloc (.ofItems []); .ok (g, .into n)
  | .bytes data _ =>
    match inPlace with
    | some (.ref e) => if listLike g e then listTarget g e else .ok (g, .copy (.bytes data []))
    | _ => .ok (g, .copy (.bytes data []))
  | .mapping _ | .date _ _ =>
    match inPlace with
    | some (.ref e) => .ok (g, .into e)
    | _ => let (g, n) := g.alloc (.mapping []); .ok (g, .into n)

/-- The instants of layer `src` entered into target `g`: each instant node of the layer paired
with the new target node that stands for it. A document gives its instants no fields. -/
def shareInstants (src g : Graph) : Graph × List (Nat × Nat) :=
  (List.range src.nodes.size).foldl (fun (g, shared) i =>
    match src.node? i with
    | some (.date ms _) => let (g, n) := g.alloc (.date ms []); (g, (i, n) :: shared)
    | _ => (g, shared)) (g, [])

/-- Merges the fields of a source node (of graph `src`) into target node `t` of `g`, in the
source's enumeration order. `shared` pairs the layer's instants with their target nodes, and
`stack` the source nodes being merged with their targets. -/
def mergeFields (src : Graph) (shared : List (Nat × Nat)) :
    Nat → List (Nat × Nat) → Graph → Nat → List (Text × Item) → Except MergeError Graph
  | 0, _, g, _, _ => .ok g
  | fuel + 1, stack, g, t, fields =>
    fields.foldlM (fun g (k, v) =>
      if k = protoKey && !v.isScalar then .ok g
      else match v with
        | .ref s =>
          match stack.lookup s, shared.lookup s, src.node? s with
          | some t', _, _ | none, some t', _ => assign g t k (.ref t')
          | none, none, some node => do
            match ← placement g (itemAt? g t k) node with
            | (g, .into n) =>
              let fields := (src.objectFields? (.ref s)).getD []
              let g ← mergeFields src shared fuel ((s, n) :: stack) g n fields
              assign g t k (.ref n)
            | (g, .copy node) => let (g, n) := g.alloc node; assign g t k (.ref n)
          | none, none, none => .ok g
        | v => assign g t k v) g

/-- Merges one layer, a graph and the fields of its record, into root node `0` of `g`. -/
def mergeLayer (g : Graph) (layer : Graph × List (Text × Item)) : Except MergeError Graph :=
  let (src, fields) := layer
  let (g, shared) := shareInstants src g
  mergeFields src shared (src.nodes.size + 1) [] g 0 fields

/-- The target of merging layers in turn into an empty mapping, the root node `0`. -/
def mergeLayers (layers : List (Graph × List (Text × Item))) : Except MergeError Graph :=
  layers.foldlM mergeLayer ⟨#[.mapping []]⟩

end Graph

end Transcode
