import Transcode.Value

/-!
# Object graphs

A YAML document is a graph rather than a tree: an alias makes two places hold the same
collection, and an alias inside the collection it names makes that collection contain itself.
Merging configuration layers keeps such sharing where it is a cycle, and a later merge that
goes through the cycle changes what every path to the collection sees. So documents and merge
results are object graphs: collection nodes are stored under identifiers, and an item is
either a scalar or the identifier of a node.

Binary data and instants are nodes as well: an alias shares an instant as it shares a
collection, and a merge may give either of them named fields.

`Graph.unfold` reads an item as a document value down to a given depth, cutting deeper nodes
to empty collections of their kind. Validation looks at most two levels below the root, so an
unfolding to depth three shows it everything it reads.
-/

namespace Transcode

namespace Graph

/-- An item of an object graph: a scalar or the identifier of a node. -/
inductive Item where
  | null
  | bool (b : Bool)
  | number (x : Binary64)
  | text (t : Text)
  | ref (id : Nat)
  deriving Inhabited, Repr, DecidableEq

/-- A node of an object graph: a list, a mapping, binary data or an instant. Besides its
elements, each object keeps the named fields a merge gave it; a list may also end in empty
places (`holes`), which a longer length gives it. -/
inductive Node where
  | list (items : List Item) (holes : Nat) (fields : List (Text × Item))
  | mapping (fields : List (Text × Item))
  | bytes (data : List UInt8) (fields : List (Text × Item))
  | date (ms : Int) (fields : List (Text × Item))
  deriving Inhabited, Repr, DecidableEq

/-- A list of items, without empty places or named fields. -/
def Node.ofItems (items : List Item) : Node := .list items 0 []

/-- The byte values of binary data as number items. -/
def byteItems (data : List UInt8) : List Item := data.map fun b => .number (.ofNat b.toNat)

/-- Items keyed by their index. -/
def indexed (items : List Item) : List (Text × Item) :=
  items.zipIdx.map fun (v, i) => (.ofString (toString i), v)

/-- The value of a key in a field list. -/
def lookup (fields : List (Text × Item)) (key : Text) : Option Item :=
  (fields.find? (·.1 = key)).map (·.2)

/-- Sets a key: replaces its value in place when present, appends it otherwise. -/
def setField (fields : List (Text × Item)) (key : Text) (v : Item) : List (Text × Item) :=
  if fields.any (·.1 = key) then fields.map fun kv => if kv.1 = key then (key, v) else kv
  else fields ++ [(key, v)]

/-- Whether a key is present in a field list. -/
def hasField (fields : List (Text × Item)) (key : Text) : Bool := fields.any (·.1 = key)

/-- Inserts a key by its index into keys sorted by index. -/
def insertByIndex (entry : Nat × (Text × Item)) : List (Nat × (Text × Item)) → List (Nat × (Text × Item))
  | [] => [entry]
  | e :: rest => if entry.1 < e.1 then entry :: e :: rest else e :: insertByIndex entry rest

/-- Fields in the order an object enumerates its keys: array indices first, ascending, then the
other keys in the order they were set. -/
def enumerationOrder (fields : List (Text × Item)) : List (Text × Item) :=
  let indexedKeys := fields.filterMap fun kv => (arrayIndex? kv.1).map fun i => (i, kv)
  let sorted := indexedKeys.foldl (fun acc e => insertByIndex e acc) []
  sorted.map (·.2) ++ fields.filter fun kv => (arrayIndex? kv.1).isNone

end Graph

/-- An object graph: its nodes, addressed by their position. -/
structure Graph where
  nodes : Array Graph.Node
  deriving Inhabited, DecidableEq

namespace Graph

/-- The graph without nodes. -/
def empty : Graph := ⟨#[]⟩

/-- The node with an identifier. -/
def node? (g : Graph) (id : Nat) : Option Node := g.nodes[id]?

/-- Adds a node, giving the graph and the node's identifier. -/
def alloc (g : Graph) (n : Node) : Graph × Nat := (⟨g.nodes.push n⟩, g.nodes.size)

/-- Replaces the node with an identifier by its image under `f`. -/
def update (g : Graph) (id : Nat) (f : Node → Node) : Graph := ⟨g.nodes.modify id f⟩

/-- Appends an item to a list node. -/
def push (g : Graph) (id : Nat) (v : Item) : Graph :=
  g.update id fun n => match n with
    | .list items holes fields => .list (items ++ List.replicate holes .null ++ [v]) 0 fields
    | n => n

/-- Sets a field of a mapping node, or a named field of binary data. -/
def setKey (g : Graph) (id : Nat) (key : Text) (v : Item) : Graph :=
  g.update id fun n => match n with
    | .mapping fields => .mapping (setField fields key v)
    | .bytes data fields => .bytes data (setField fields key v)
    | n => n

/-- The fields of an item as an object shows its own keys: a mapping's fields, a list's items
or binary data's bytes under their indices, then the named fields; `none` for a scalar, which
is no object. The order is the object's enumeration order. -/
def objectFields? (g : Graph) : Item → Option (List (Text × Item))
  | .ref id =>
    match g.node? id with
    | some (.mapping fields) => some (enumerationOrder fields)
    | some (.list items _ fields) => some (indexed items ++ enumerationOrder fields)
    | some (.bytes data fields) => some (indexed (byteItems data) ++ enumerationOrder fields)
    | some (.date _ fields) => some (enumerationOrder fields)
    | none => none
  | _ => none

/-- An item read as a document value down to `depth` levels of nodes; deeper nodes become
empty collections of their kind. Binary data with named fields reads as a mapping of them; a
list's empty places and named fields, and an instant's named fields, are not shown. -/
def unfold (g : Graph) : Nat → Item → Value
  | _, .null => .null
  | _, .bool b => .bool b
  | _, .number x => .number x
  | _, .text t => .text t
  | depth, .ref id =>
    match g.node? id, depth with
    | some (.list items _ _), d + 1 => .list (items.map (unfold g d))
    | some (.list _ _ _), 0 => .list []
    | some (.date ms _), _ => .date ms
    | some (.mapping fields), d + 1 => .mapping (fields.map fun (k, v) => (k, unfold g d v))
    | some (.mapping _), 0 => .mapping []
    | some (.bytes data []), _ => .binary data
    | some (.bytes _ fields), d + 1 => .mapping (fields.map fun (k, v) => (k, unfold g d v))
    | some (.bytes _ _), 0 => .mapping []
    | none, _ => .null

end Graph

/-- A document: an object graph and the item at its root. -/
structure Document where
  graph : Graph
  root : Graph.Item
  deriving DecidableEq

end Transcode
