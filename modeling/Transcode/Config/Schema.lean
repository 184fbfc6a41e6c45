import Transcode.Value

/-!
# The configuration schema

A configuration has two sections. `log` says how verbose logging is (`level`), where it goes
(`target`: standard output or a file), the file (`filePath`) and whether standard output is
pretty-printed (`pretty`). `charsets` names the default charset (`default`, a non-empty text;
it need not name a known charset).

Validation reads a document value against this schema and either builds the configuration,
dropping every key the schema does not know, or reports every problem found, in schema order:
each section, then each field of it. A problem is an `Issue` with a code, the path of keys to
the value, and a message:

* a missing or undefined value is `Required`;
* a value of the wrong kind is `Expected <what>, received <kind>`, where an enumeration expects
  its options `'a' | 'b'`;
* a text outside an enumeration is `Invalid enum value. Expected 'a' | 'b', received 'x'`;
* an empty default charset has its own message.

The kind of a value is `array`, `null`, `date`, `object` (any other object), `string`,
`number` (`nan` for a NaN) or `boolean`. An object's fields are read as its properties, so a
field it inherits from its prototype counts as well (`Value.property?`).
-/

namespace Transcode

/-- How verbose logging is. -/
inductive Level where
  | trace | debug | info | warn | error | fatal | silent
  deriving DecidableEq, Repr

namespace Level

/-- All levels, in the schema's order. -/
def all : List Level := [.trace, .debug, .info, .warn, .error, .fatal, .silent]

/-- The name of a level. -/
def name : Level → String
  | .trace => "trace" | .debug => "debug" | .info => "info" | .warn => "warn"
  | .error => "error" | .fatal => "fatal" | .silent => "silent"

end Level

/-- Where log output goes. -/
inductive Target where
  | stdout | file
  deriving DecidableEq, Repr

namespace Target

/-- All targets, in the schema's order. -/
def all : List Target := [.stdout, .file]

/-- The name of a target. -/
def name : Target → String
  | .stdout => "stdout" | .file => "file"

end Target

/-- The `log` section. -/
structure LogConfig where
  level : Level
  target : Target
  filePath : Text
  pretty : Bool
  deriving DecidableEq, Repr

/-- The `charsets` section. -/
structure CharsetsConfig where
  defaultName : Text
  deriving DecidableEq, Repr

/-- A validated configuration. -/
structure Config where
  log : LogConfig
  charsets : CharsetsConfig
  deriving DecidableEq, Repr

/-- What kind of problem an issue is. -/
inductive IssueCode where
  | invalidType
  | invalidEnumValue
  | tooSmall
  deriving DecidableEq, Repr

/-- The name of an issue code. -/
def IssueCode.name : IssueCode → String
  | .invalidType => "invalid_type"
  | .invalidEnumValue => "invalid_enum_value"
  | .tooSmall => "too_small"

/-- A problem found by validation: its code, the keys leading to the value, and a message. -/
structure Issue where
  code : IssueCode
  path : List Text
  message : Text
  deriving DecidableEq, Repr

/-- An issue as a report line: the path joined with `.`, then the message. -/
def Issue.line (i : Issue) : Text :=
  Text.intercalate (.ofString ".") i.path ++ .ofString ": " ++ i.message

namespace Value

/-- The kind of a value as validation names it. -/
def kindName : Value → String
  | .undefined => "undefined"
  | .null => "null"
  | .bool _ => "boolean"
  | .number x => if x.isNaN then "nan" else "number"
  | .text _ => "string"
  | .list _ => "array"
  | v => if v.base? = some .date then "date" else "object"

/-- Whether validation takes a value for an object, whose fields it then reads as properties:
any object but a list and an instant (or an object whose prototypes lead to an instant). -/
def isRecord : Value → Bool
  | .list _ => false
  | v => v.isObject && v.base? ≠ some .date

end Value

namespace Schema

/-- Options quoted and joined the way messages list them: `'a' | 'b'`. -/
def options (names : List String) : String := " | ".intercalate (names.map fun n => "'" ++ n ++ "'")

/-- A wrong-kind issue: `Required` when the value is missing or undefined. -/
def wrongKind (path : List Text) (expected : String) : Option Value → Issue
  | none | some .undefined => ⟨.invalidType, path, .ofString "Required"⟩
  | some v => ⟨.invalidType, path, .ofString ("Expected " ++ expected ++ ", received " ++ v.kindName)⟩

/-- One of the named options of an enumeration. -/
def enumeration (all : List α) (name : α → String) (path : List Text) :
    Option Value → Except Issue α
  | some (.text t) =>
    match all.find? (fun a => Text.ofString (name a) = t) with
    | some a => .ok a
    | none => .error ⟨.invalidEnumValue, path,
        .ofString ("Invalid enum value. Expected " ++ options (all.map name) ++ ", received '") ++
          t ++ .ofString "'"⟩
  | v => .error (wrongKind path (options (all.map name)) v)

/-- A text. -/
def text (path : List Text) : Option Value → Except Issue Text
  | some (.text t) => .ok t
  | v => .error (wrongKind path "string" v)

/-- A boolean. -/
def boolean (path : List Text) : Option Value → Except Issue Bool
  | some (.bool b) => .ok b
  | v => .error (wrongKind path "boolean" v)

/-- An object, whose fields are then read as its properties. -/
def object (path : List Text) : Option Value → Except Issue Value
  | some v => if v.isRecord then .ok v else .error (wrongKind path "object" (some v))
  | none => .error (wrongKind path "object" none)

/-- The issue of a check, if it failed. -/
def issueOf : Except Issue α → List Issue
  | .error i => [i]
  | .ok _ => []

/-- The issues of a section, if it failed. -/
def issuesOf : Except (List Issue) α → List Issue
  | .error is => is
  | .ok _ => []

/-- The `log` section: each field checked, all issues kept. -/
def logSection (v : Option Value) : Except (List Issue) LogConfig :=
  let path := [Text.ofString "log"]
  match object path v with
  | .error i => .error [i]
  | .ok part =>
    let at_ (k : String) : List Text × Option Value := (path ++ [.ofString k], part.property? (.ofString k))
    let level := enumeration Level.all Level.name (at_ "level").1 (at_ "level").2
    let target := enumeration Target.all Target.name (at_ "target").1 (at_ "target").2
    let filePath := text (at_ "filePath").1 (at_ "filePath").2
    let pretty := boolean (at_ "pretty").1 (at_ "pretty").2
    match level, target, filePath, pretty with
    | .ok l, .ok t, .ok f, .ok p => .ok ⟨l, t, f, p⟩
    | _, _, _, _ => .error (issueOf level ++ issueOf target ++ issueOf filePath ++ issueOf pretty)

/-- The message for an empty default charset. -/
def emptyCharsetMessage : Text := .ofString "charsets.default must name a charset"

/-- The `charsets` section: a non-empty default charset name. -/
def charsetsSection (v : Option Value) : Except (List Issue) CharsetsConfig :=
  let path := [Text.ofString "charsets"]
  match object path v with
  | .error i => .error [i]
  | .ok part =>
    let fieldPath := path ++ [.ofString "default"]
    match text fieldPath (part.property? (.ofString "default")) with
    | .error i => .error [i]
    | .ok t => if t.length < 1 then .error [⟨.tooSmall, fieldPath, emptyCharsetMessage⟩] else .ok ⟨t⟩

end Schema

/-- Validates a document value as a configuration, keeping only the schema's keys. -/
def Config.parse (v : Value) : Except (List Issue) Config :=
  match Schema.object [] (some v) with
  | .error i => .error [i]
  | .ok record =>
    let log := Schema.logSection (record.property? (.ofString "log"))
    let charsets := Schema.charsetsSection (record.property? (.ofString "charsets"))
    match log, charsets with
    | .ok l, .ok c => .ok ⟨l, c⟩
    | l, c => .error (Schema.issuesOf l ++ Schema.issuesOf c)

end Transcode
