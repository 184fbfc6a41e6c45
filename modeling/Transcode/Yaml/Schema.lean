import Transcode.Graph
import Transcode.Decimal.Reading

/-!
# The default YAML schema

A node's tag decides what value it constructs. The schema is a table of types, each with a
tag, the kind of node it applies to, a test (`resolve`) and a constructor (`construct`). A plain
scalar without a tag tries the implicit types in turn — null, bool, int, float, timestamp,
merge — and is a string when none matches; a node with an explicit tag uses the type of that
tag and kind, and fails when its test fails.

The implicit forms are those of YAML 1.2's core schema: `~`, `null`, `true`/`false` in three
capitalisations, integers in decimal, `0x`, `0o` or `0b`, floats with `.inf` and `.nan`, and
timestamps `YYYY-MM-DD` with an optional time and zone. A numeral whose value overflows the
binary64 range is no number (only `.inf` is infinite). So `yes`, `1_000` and `1e400` are
strings, and `012` is the decimal twelve.

Types work on the items of the document's object graph: a scalar arrives as its text (or null
when the node is empty), a collection as a reference to its node; constructing a timestamp,
binary data or the pairs of `!!pairs` adds nodes to the graph.
-/

namespace Transcode

namespace Yaml

/-- The kind of a node. -/
inductive NodeKind where
  | scalar
  | sequence
  | mapping
  deriving DecidableEq, Repr

/-- The name of a kind, as messages show it. -/
def NodeKind.name : NodeKind → String
  | .scalar => "scalar"
  | .sequence => "sequence"
  | .mapping => "mapping"

open Transcode.Graph (Item Node)

/-- A type of the schema: its tag and kind, its test and constructor, and the text operation its
test calls, before deciding, on a value that is neither text nor null (`none` when it calls
none, or decides without one). -/
structure TypeDef where
  tag : String
  kind : NodeKind
  resolve : Graph → Item → Bool
  construct : Graph → Item → Graph × Item
  textOperation? : Item → Option String

/-- A type of scalars, whose test and constructor do not look at the graph and whose test
refuses any value that is no text. -/
def scalarType (tag : String) (resolve : Item → Bool) (construct : Item → Item) : TypeDef :=
  { tag, kind := .scalar, resolve := fun _ v => resolve v, construct := fun g v => (g, construct v),
    textOperation? := fun _ => none }

/-- The characters of an ASCII text, or `none` when it has other units. -/
def asciiChars (v : Item) : Option (List Char) :=
  match v with
  | .text t => if t.units.all (· < 128) then some (t.units.map fun u => Char.ofNat u.toNat) else none
  | _ => none

/-- Whether the item is the text `s`. -/
def isText (v : Item) (s : String) : Bool := asciiChars v = some s.toList

/-- Whether the item is null. -/
def isNullItem : Item → Bool
  | .null => true
  | _ => false

/-- The prefix of `tag:yaml.org,2002:`. -/
def coreTag (name : String) : String := "tag:yaml.org,2002:" ++ name

/-! ## null and bool -/

def nullType : TypeDef :=
  scalarType (coreTag "null")
    (fun v => match v with
      | .null => true
      | v => ["~", "null", "Null", "NULL"].any (isText v))
    (fun _ => .null)

def boolType : TypeDef :=
  scalarType (coreTag "bool")
    (fun v => ["true", "True", "TRUE", "false", "False", "FALSE"].any (isText v))
    (fun v => .bool (["true", "True", "TRUE"].any (isText v)))

/-! ## int -/

def isBin (c : Char) : Bool := c = '0' || c = '1'
def isOct (c : Char) : Bool := '0' ≤ c && c ≤ '7'
def isHex (c : Char) : Bool := c.isDigit || ('a' ≤ c && c ≤ 'f') || ('A' ≤ c && c ≤ 'F')

/-- Digits of a base, at least one. -/
def digitsWith (ok : Char → Bool) (cs : List Char) : Bool := !cs.isEmpty && cs.all ok

/-- The integer forms: optional sign, then `0`, `0b…`, `0x…`, `0o…`, or decimal digits. -/
def intShape (cs : List Char) : Bool :=
  let body := match cs with
    | '-' :: r | '+' :: r => r
    | r => r
  match body with
  | [] => false
  | ['0'] => true
  | '0' :: 'b' :: r => digitsWith isBin r
  | '0' :: 'x' :: r => digitsWith isHex r
  | '0' :: 'o' :: r => digitsWith isOct r
  | r => digitsWith Char.isDigit r

/-- The value of digits in a base. -/
def digitsIn (base : Nat) (cs : List Char) : Nat :=
  cs.foldl (fun acc c =>
    let d := if c.isDigit then c.toNat - '0'.toNat
      else if 'a' ≤ c && c ≤ 'f' then c.toNat - 'a'.toNat + 10
      else c.toNat - 'A'.toNat + 10
    acc * base + d) 0

/-- The number an integer form denotes, rounded to binary64; `-0` is zero. -/
def intValue (cs : List Char) : Binary64 :=
  let (negative, body) := match cs with
    | '-' :: r => (true, r)
    | '+' :: r => (false, r)
    | r => (false, r)
  let magnitude : Binary64 := match body with
    | '0' :: 'b' :: r => .ofNat (digitsIn 2 r)
    | '0' :: 'x' :: r => .ofNat (digitsIn 16 r)
    | '0' :: 'o' :: r => .ofNat (digitsIn 8 r)
    | r => .ofNat (digitsIn 10 r)
  if body = ['0'] then .zero false else if negative then -magnitude else magnitude

/-- Integers: an integer form whose value is finite. -/
def intType : TypeDef :=
  scalarType (coreTag "int")
    (fun v => match asciiChars v with
      | some cs => intShape cs && (intValue cs).isFinite
      | none => false)
    (fun v => .number (intValue ((asciiChars v).getD [])))

/-! ## float -/

/-- An exponent part `[eE][-+]?[0-9]+` followed by nothing, or nothing at all. -/
def exponentTail : List Char → Bool
  | [] => true
  | c :: r =>
    (c = 'e' || c = 'E') &&
      let r := match r with
        | '-' :: r | '+' :: r => r
        | r => r
      !r.isEmpty && r.all Char.isDigit

/-- Whether the form is `[-+]?\.(inf|Inf|INF)`. -/
def infinityShape (cs : List Char) : Bool :=
  let unsigned := match cs with
    | '-' :: r | '+' :: r => r
    | r => r
  [".inf", ".Inf", ".INF"].any (·.toList = unsigned)

/-- The float forms: `[-+]?[0-9]+(\.[0-9]*)?([eE][-+]?[0-9]+)?`, `\.[0-9]+` with an optional
exponent, `[-+]?\.(inf|Inf|INF)` and `\.(nan|NaN|NAN)`. -/
def floatShape (cs : List Char) : Bool :=
  let unsigned := match cs with
    | '-' :: r | '+' :: r => r
    | r => r
  let decimal := match unsigned with
    | c :: r =>
      c.isDigit &&
        let r := r.dropWhile Char.isDigit
        match r with
        | '.' :: r => exponentTail (r.dropWhile Char.isDigit)
        | r => exponentTail r
    | [] => false
  let pointFirst := match cs with
    | '.' :: r =>
      let ds := r.takeWhile Char.isDigit
      !ds.isEmpty && exponentTail (r.dropWhile Char.isDigit)
    | _ => false
  let notANumber := [".nan", ".NaN", ".NAN"].any (·.toList = cs)
  decimal || pointFirst || infinityShape cs || notANumber

/-- The number a float form denotes. -/
def floatValue (cs : List Char) : Binary64 :=
  let cs := cs.map Char.toLower
  let (negative, body) := match cs with
    | '-' :: r => (true, r)
    | '+' :: r => (false, r)
    | r => (false, r)
  if body = ".inf".toList then .infinity negative
  else if body = ".nan".toList then .nan
  else
    let x := (Decimal.read? body).getD .nan
    if negative then -x else x

/-- Floats: a float form whose value is finite or not a number, or an infinity form. A number
whose text is a float form (any finite one) passes the test of form and then has its text
lowered, which a number cannot do. -/
def floatType : TypeDef :=
  { scalarType (coreTag "float")
      (fun v => match asciiChars v with
        | some cs =>
          floatShape cs && (infinityShape cs || (floatValue cs).isNaN || (floatValue cs).isFinite)
        | none => false)
      (fun v => .number (floatValue ((asciiChars v).getD []))) with
    textOperation? := fun v => match v with
      | .number x => if floatShape x.format.toList then some "toLowerCase" else none
      | _ => none }

/-! ## timestamp -/

/-- The fields of a timestamp: date, then optionally time, fraction digits and zone. -/
structure Stamp where
  year : Nat
  month : Nat
  day : Nat
  time : Option (Nat × Nat × Nat × List Char)
  zone : Option (Bool × Nat × Nat)

/-- One or two digits. -/
def digits12 (cs : List Char) : Option (Nat × List Char) :=
  match cs with
  | a :: b :: r => if a.isDigit then
      (if b.isDigit then some (digitsIn 10 [a, b], r) else some (digitsIn 10 [a], b :: r))
    else none
  | [a] => if a.isDigit then some (digitsIn 10 [a], []) else none
  | [] => none

/-- Exactly `n` digits. -/
def digitsN (n : Nat) (cs : List Char) : Option (Nat × List Char) :=
  let ds := cs.take n
  if ds.length = n && ds.all Char.isDigit then some (digitsIn 10 ds, cs.drop n) else none

/-- The zone part `[ \t]*(Z|[-+]h(h)?(:mm)?)` up to the end. -/
def zoneOf (cs : List Char) : Option (Option (Bool × Nat × Nat)) :=
  match cs with
  | [] => some none
  | _ =>
    match cs.dropWhile (fun c => c = ' ' || c = '\t') with
    | ['Z'] => some none
    | s :: r =>
      if s = '-' || s = '+' then do
        let (h, r) ← digits12 r
        match r with
        | [] => some (some (s = '-', h, 0))
        | ':' :: r =>
          let (m, r) ← digitsN 2 r
          if r.isEmpty then some (some (s = '-', h, m)) else none
        | _ => none
      else none
    | [] => none

/-- Skips the separator between date and time: `T`, `t`, or one or more blanks. -/
def timeSeparator : List Char → Option (List Char)
  | 'T' :: r | 't' :: r => some r
  | c :: r =>
    if c = ' ' || c = '\t' then some (r.dropWhile fun c => c = ' ' || c = '\t') else none
  | [] => none

/-- Reads a timestamp: `YYYY-MM-DD` alone, or `YYYY-M(M)-D(D)` with a time after `T`, `t` or
blanks, an optional fraction and an optional zone. -/
def stampOf (cs : List Char) : Option Stamp := do
  let (y, r) ← digitsN 4 cs
  match r with
  | '-' :: r =>
    -- the date-only form has two-digit month and day and nothing after them
    match digitsN 2 r with
    | some (m, '-' :: r') =>
      match digitsN 2 r' with
      | some (d, []) => return ⟨y, m, d, none, none⟩
      | _ => stampWithTime y r
    | _ => stampWithTime y r
  | _ => none
where
  stampWithTime (y : Nat) (r : List Char) : Option Stamp := do
    let (m, r) ← digits12 r
    let r ← match r with | '-' :: r => some r | _ => none
    let (d, r) ← digits12 r
    let r ← timeSeparator r
    let (h, r) ← digits12 r
    let r ← match r with | ':' :: r => some r | _ => none
    let (mi, r) ← digitsN 2 r
    let r ← match r with | ':' :: r => some r | _ => none
    let (s, r) ← digitsN 2 r
    let (frac, r) := match r with
      | '.' :: r => (r.takeWhile Char.isDigit, r.dropWhile Char.isDigit)
      | r => ([], r)
    let zone ← zoneOf r
    return ⟨y, m, d, some (h, mi, s, frac), zone⟩

/-- The instant of a timestamp, in milliseconds since the epoch. -/
def Stamp.instant (st : Stamp) : Int :=
  match st.time with
  | none => Calendar.instantOf st.year ((st.month : Int) - 1) st.day 0 0 0 0
  | some (h, mi, s, frac) =>
    let ms := digitsIn 10 ((frac.take 3) ++ List.replicate (3 - (frac.take 3).length) '0')
    let t := Calendar.instantOf st.year ((st.month : Int) - 1) st.day h mi s ms
    match st.zone with
    | some (west, zh, zm) =>
      let delta : Int := ((zh * 60 + zm) * 60000 : Nat)
      if west then t + delta else t - delta
    | none => t

/-- Timestamps: constructed as a new instant node, which aliases share. -/
def timestampType : TypeDef :=
  { tag := coreTag "timestamp", kind := .scalar
    resolve := fun _ v => match asciiChars v with
      | some cs => (stampOf cs).isSome
      | none => false
    construct := fun g v => match (asciiChars v).bind stampOf with
      | some st => let (g, id) := g.alloc (.date st.instant []); (g, .ref id)
      | none => (g, v)
    textOperation? := fun _ => none }

/-! ## merge -/

def mergeType : TypeDef :=
  scalarType (coreTag "merge")
    (fun v => match v with
      | .null => true
      | v => isText v "<<")
    id

/-! ## binary -/

/-- The base64 alphabet with `=` (value 64). -/
def base64Code (c : Char) : Option Nat :=
  if 'A' ≤ c && c ≤ 'Z' then some (c.toNat - 'A'.toNat)
  else if 'a' ≤ c && c ≤ 'z' then some (c.toNat - 'a'.toNat + 26)
  else if c.isDigit then some (c.toNat - '0'.toNat + 52)
  else if c = '+' then some 62 else if c = '/' then some 63 else if c = '=' then some 64
  else none

/-- Base64 text: alphabet, `=` and line breaks only, and a whole number of bytes (each
character other than a line break counts six bits, `=` included). -/
def base64Shape (cs : List Char) : Bool :=
  let cs := cs.filter fun c => c ≠ '\n' && c ≠ '\r'
  cs.all (fun c => (base64Code c).isSome) && cs.length * 6 % 8 = 0

/-- The bytes of base64 text, read in groups of four characters; a last group of two or
three characters gives one or two bytes, and an empty text gives three zero bytes. -/
def base64Bytes (cs : List Char) : List UInt8 :=
  let vals := (cs.filter fun c => c ≠ '\n' && c ≠ '\r' && c ≠ '=').map fun c => (base64Code c).getD 0
  let byte (n : Nat) : UInt8 := (n % 256).toUInt8
  let rec go (idx bits : Nat) (acc : List UInt8) : List Nat → List UInt8 × Nat
    | [] => (acc, bits)
    | v :: rest =>
      let acc := if idx % 4 = 0 && idx ≠ 0 then
          acc ++ [byte (bits / 65536), byte (bits / 256), byte bits] else acc
      go (idx + 1) ((bits * 64 + v) % 2 ^ 24) acc rest
  let (acc, bits) := go 0 0 [] vals
  match vals.length % 4 with
  | 0 => acc ++ [byte (bits / 65536), byte (bits / 256), byte bits]
  | 3 => acc ++ [byte (bits / 1024), byte (bits / 4)]
  | 2 => acc ++ [byte (bits / 16)]
  | _ => acc

/-- Binary data: base64 text, constructed as a new node. Any value that is neither text nor
null passes the test, having no units to refuse, and then has its line breaks replaced, which
it cannot do. -/
def binaryType : TypeDef :=
  { tag := coreTag "binary", kind := .scalar
    resolve := fun _ v => match asciiChars v with
      | some cs => base64Shape cs
      | none => false
    construct := fun g v =>
      let (g, id) := g.alloc (.bytes (base64Bytes ((asciiChars v).getD [])) [])
      (g, .ref id)
    textOperation? := fun v => match v with
      | .text _ | .null => none
      | _ => some "replace" }

/-! ## strings and collections -/

def strType : TypeDef :=
  scalarType (coreTag "str") (fun _ => true) fun v => match v with
    | .null => .text .empty
    | v => v

/-- A collection type whose empty node constructs a new empty collection. -/
def collectionType (tag : String) (kind : NodeKind) (empty : Node) (resolve : Graph → Item → Bool) :
    TypeDef :=
  { tag, kind, resolve
    construct := fun g v => match v with
      | .null => let (g, id) := g.alloc empty; (g, .ref id)
      | v => (g, v)
    textOperation? := fun _ => none }

def seqType : TypeDef := collectionType (coreTag "seq") .sequence (.ofItems []) fun _ _ => true

def mapType : TypeDef := collectionType (coreTag "map") .mapping (.mapping []) fun _ _ => true

/-- The items of a list node. -/
def listItems? (g : Graph) : Item → Option (List Item)
  | .ref id => match g.node? id with
    | some (.list items _ _) => some items
    | _ => none
  | _ => none

/-- The only field of a mapping node with exactly one. -/
def singleField? (g : Graph) : Item → Option (Text × Item)
  | .ref id => match g.node? id with
    | some (.mapping [kv]) => some kv
    | _ => none
  | _ => none

/-- Whether a list of keys has no repetition. -/
def distinctKeys : List Text → Bool
  | [] => true
  | k :: rest => !rest.contains k && distinctKeys rest

/-- Ordered mappings: a list of one-key mappings with distinct keys. -/
def omapType : TypeDef :=
  collectionType (coreTag "omap") .sequence (.ofItems []) fun g v => match v with
    | .null => true
    | v => match listItems? g v with
      | some items =>
        let keys := items.map (singleField? g)
        keys.all Option.isSome && distinctKeys (keys.filterMap (·.map (·.1)))
      | none => false

/-- Pairs: a list of one-key mappings, constructed as a new list of `[key, value]` lists. -/
def pairsType : TypeDef :=
  { tag := coreTag "pairs", kind := .sequence
    resolve := fun g v => match v with
      | .null => true
      | v => match listItems? g v with
        | some items => items.all fun i => (singleField? g i).isSome
        | none => false
    construct := fun g v =>
      let pairs := ((listItems? g v).getD []).filterMap (singleField? g)
      let (g, refs) := pairs.foldl (fun (g, refs) (k, x) =>
        let (g, id) := g.alloc (.ofItems [.text k, x])
        (g, refs ++ [Item.ref id])) (g, [])
      let (g, id) := g.alloc (.ofItems refs)
      (g, .ref id)
    textOperation? := fun _ => none }

/-- Sets: a mapping whose values are all null. -/
def setType : TypeDef :=
  collectionType (coreTag "set") .mapping (.mapping []) fun g v => match v with
    | .null => true
    | .ref id => match g.node? id with
      | some (.mapping fields) => fields.all fun (_, x) => isNullItem x
      | _ => false
    | _ => false

/-- The types tried, in order, on a plain scalar without a tag. -/
def implicitTypes : List TypeDef :=
  [nullType, boolType, intType, floatType, timestampType, mergeType]

/-- Every type of the schema. -/
def allTypes : List TypeDef :=
  [strType, seqType, mapType, nullType, boolType, intType, floatType, timestampType, mergeType,
   binaryType, omapType, pairsType, setType]

/-- The type of an explicit tag for a node of the given kind; a node without content (no
kind) may take a type of any kind. -/
def typeFor (kind : Option NodeKind) (tag : Text) : Option TypeDef :=
  allTypes.find? fun t =>
    Text.ofString t.tag = tag && match kind with
      | some k => t.kind = k
      | none => true

end Yaml

end Transcode
