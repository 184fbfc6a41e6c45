import Transcode.Charset.Utf8
import Transcode.Charset.SingleByte
import Transcode.Text.Blank
import Transcode.Text.Case
import Transcode.Check

/-!
# Charsets and their names

The library knows three charsets: ISO-8859-1 (single-byte, limit `FF`), US-ASCII (single-byte,
limit `7F`) and UTF-8. Each has a canonical name and aliases. The registry maps keys to
charsets: each charset in turn is registered under its canonical name and its aliases, all
lowercased, and a key registered again would take the later charset. A name is looked up by
trimming its blanks and lowercasing what remains.

A caller may also bring a charset of its own (`Foreign`), which is used as it is; `CharsetRef`
is either kind, and `CharsetSpec` is what operations accept: a name to look up or a charset.
Encoding reports how many characters it wrote as `?`; a foreign charset reports none.
-/

namespace Transcode

/-- The charsets of the library. -/
inductive Charset where
  | latin1
  | ascii
  | utf8
  deriving DecidableEq, Repr

namespace Charset

/-- All charsets, in the order they are registered. -/
def all : List Charset := [.latin1, .ascii, .utf8]

/-- The canonical name. -/
def name : Charset → String
  | .latin1 => "ISO-8859-1"
  | .ascii => "US-ASCII"
  | .utf8 => "UTF-8"

/-- The name of the kind of object a charset is: the single-byte charsets share one. -/
def instanceName : Charset → String
  | .latin1 | .ascii => "SingleByteCharset"
  | .utf8 => "Utf8Charset"

/-- The other names. -/
def aliases : Charset → List String
  | .latin1 => ["latin1", "l1", "iso8859_1", "iso_8859_1", "iso-latin-1", "cp819", "ibm819"]
  | .ascii => ["ascii", "us", "iso646-us", "ascii7"]
  | .utf8 => ["utf8"]

/-- The keys a charset is registered under: its canonical name and its aliases, lowercased. -/
def keys (c : Charset) : List Text := (c.name :: c.aliases).map fun s => (Text.ofString s).toLowerCase

/-- Bytes of a text, and how many characters were written as `?`. -/
def encodeCounting : Charset → Text → List UInt8 × Nat
  | .latin1, t => (SingleByte.encode 0xFF t, SingleByte.replacedCount 0xFF t)
  | .ascii, t => (SingleByte.encode 0x7F t, SingleByte.replacedCount 0x7F t)
  | .utf8, t => Utf8.encodeCounting t

/-- Bytes of a text. -/
def encode (c : Charset) (t : Text) : List UInt8 := (c.encodeCounting t).1

/-- Text of bytes. -/
def decode : Charset → List UInt8 → Text
  | .latin1, bs => SingleByte.decode 0xFF bs
  | .ascii, bs => SingleByte.decode 0x7F bs
  | .utf8, bs => Utf8.decode bs

/-- Sets a key of a registry: a key already present keeps its place and takes the new charset,
a new key is added last. -/
def setKey (reg : List (Text × Charset)) (key : Text) (c : Charset) : List (Text × Charset) :=
  if reg.any (·.1 == key) then reg.map fun e => if e.1 == key then (key, c) else e
  else reg ++ [(key, c)]

/-- The registry built by registering the charsets of `order` in turn, each under its keys. -/
def register (order : List Charset) : List (Text × Charset) :=
  order.foldl (fun reg c => c.keys.foldl (fun reg key => setKey reg key c) reg) []

/-- The registry of the library, its charsets registered in the order of `all`. -/
def registry : List (Text × Charset) := register all

/-- The charset a name denotes, if any: the one registered under the name trimmed and
lowercased. -/
def lookup (name : Text) : Option Charset := registry.lookup name.trim.toLowerCase

/-- Inserts a name into a sorted list of names, ordered by their UTF-16 units as JavaScript
compares strings. -/
def insertName (a : String) : List String → List String
  | [] => [a]
  | b :: rest =>
    if (Text.ofString a).units ≤ (Text.ofString b).units then a :: b :: rest
    else b :: insertName a rest

/-- The canonical names of the registry's charsets, each once, sorted. -/
def available : List String := (registry.map fun e => e.2.name).eraseDups.foldr insertName []

example : available = ["ISO-8859-1", "US-ASCII", "UTF-8"] := by decide

end Charset

/-- A charset brought by a caller: its name, aliases, codec, the text it prints as and the name
of the kind of object it is. -/
structure Foreign where
  name : Text
  aliases : List Text
  encode : Text → List UInt8
  decode : List UInt8 → Text
  display : Text
  instanceName : Text

/-- A charset of the library or of a caller. -/
inductive CharsetRef where
  | builtin (c : Charset)
  | foreign (c : Foreign)

namespace CharsetRef

/-- The canonical name. -/
def name : CharsetRef → Text
  | .builtin c => .ofString c.name
  | .foreign c => c.name

/-- The aliases. -/
def aliases : CharsetRef → List Text
  | .builtin c => c.aliases.map Text.ofString
  | .foreign c => c.aliases

/-- The text the charset prints as: a library charset prints its name. -/
def display : CharsetRef → Text
  | .builtin c => .ofString c.name
  | .foreign c => c.display

/-- The name of the kind of object the charset is. -/
def instanceName : CharsetRef → Text
  | .builtin c => .ofString c.instanceName
  | .foreign c => c.instanceName

/-- Bytes of a text. -/
def encode : CharsetRef → Text → List UInt8
  | .builtin c => c.encode
  | .foreign c => c.encode

/-- Text of bytes. -/
def decode : CharsetRef → List UInt8 → Text
  | .builtin c => c.decode
  | .foreign c => c.decode

/-- Bytes of a text and the number of characters written as `?` (none for a foreign one). -/
def encodeWithReport : CharsetRef → Text → List UInt8 × Nat
  | .builtin c, t => c.encodeCounting t
  | .foreign c, t => (c.encode t, 0)

end CharsetRef

/-- A charset argument: a name to look up, or a charset to use as it is. -/
inductive CharsetSpec where
  | named (name : Text)
  | given (c : CharsetRef)

/-- The charset of a name; an unknown name fails with the name as given. -/
def forName (name : Option Text) : Except Fault Charset := do
  let n ← Check.present name (.ofString "forName(null)")
  match Charset.lookup n with
  | some c => return c
  | none => throw (.unsupportedCharset n)

/-- Whether a name denotes a charset. -/
def isSupported (name : Option Text) : Except Fault Bool := do
  let n ← Check.present name (.ofString "isSupported(null)")
  return (Charset.lookup n).isSome

/-- The charset of an argument: a name is looked up, a charset is kept. -/
def resolveCharset : CharsetSpec → Except Fault CharsetRef
  | .named n => (forName (some n)).map .builtin
  | .given c => .ok c

end Transcode
