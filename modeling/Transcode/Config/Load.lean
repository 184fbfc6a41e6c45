import Transcode.Yaml.Load
import Transcode.Config.Schema
import Transcode.Config.Merge

/-!
# Loading the configuration

The configuration comes from two YAML files: the defaults, which ship with the library, and an
optional user file. Each is read as UTF-8 text (so an unpaired surrogate reads back as U+FFFD)
and loaded as a single YAML document. An empty document or a null counts as an empty record;
any other document must pass the record schema. The user record is merged over the defaults
record, and the merge is validated.

The loader is written over the libraries it calls (`Config.Libraries`): a YAML loader, a record
schema, a deep merge and the configuration schema. `Config.loadWith` is the loader for any of
them; `Config.loadFrom` runs it with the libraries the package pins (`Libraries.pinned`): a
record is then a mapping's fields except `__proto__`, or binary data's bytes keyed by index.

Failures come in a fixed order: the defaults' YAML, the defaults' record, the user file's YAML,
its record, the merge, then validation; the user file is not read when the defaults fail. A
YAML error or a merge error is passed on as it is. A record or validation failure writes a
report, one line per issue under a heading, and fails with a single message naming both files.
-/

namespace Transcode

/-- Why loading the configuration failed. -/
inductive LoadError where
  /-- A file is not valid YAML. -/
  | yaml (e : Yaml.Error)
  /-- A document is not an object, or the merged configuration breaks the schema. -/
  | invalid (issues : List Issue)
  /-- Merging the layers failed. -/
  | merge (e : Graph.MergeError)

namespace LoadError

/-- The message of the failure. -/
def message : LoadError → Text
  | .yaml e => e.message
  | .invalid _ => .ofString "Invalid configuration. Please check config.yaml and config.defaults.yaml"
  | .merge e => e.message

/-- The lines written to standard error before failing: nothing for a YAML error, else a
heading and one line per issue. -/
def report : LoadError → List Text
  | .yaml _ | .merge _ => []
  | .invalid issues =>
    .ofString "Configuration validation failed:" :: issues.map fun i => .ofString "  - " ++ i.line

end LoadError

namespace Config

/-- The defaults that ship with the library. -/
def bundledDefaults : Text := .ofString
  "log:\n  level: info\n  target: stdout\n  filePath: backport-shims.log\n  pretty: true\n\ncharsets:\n  default: UTF-8\n"

/-- The fields of a document read as a record of its own keys: a mapping's fields except
`__proto__`, binary data's bytes under their indices; none for anything else. -/
def recordFields? (d : Document) : Option (List (Text × Graph.Item)) :=
  match d.root with
  | .ref id =>
    match d.graph.node? id with
    | some (.mapping fields) => some ((Graph.enumerationOrder fields).filter (·.1 ≠ Graph.protoKey))
    | some (.bytes data _) => some (Graph.indexed (Graph.byteItems data))
    | _ => none
  | _ => none

/-- zod's record schema of a document, as the pinned version has it: the document's record
fields, or one issue at the root. -/
def recordOf (d : Document) : Except (List Issue) (Graph × List (Text × Graph.Item)) :=
  match recordFields? d with
  | some fields => .ok (d.graph, fields)
  | none => .error [Schema.wrongKind [] "object" (some (d.graph.unfold 0 d.root))]

/-- The libraries the loader calls: a YAML loader (a text's single document, none when the text
holds none), the record schema a document must pass (its record, or the issues), a deep merge of
records into an empty mapping, and the configuration schema of the merged graph. -/
structure Libraries where
  load : Text → Except Yaml.Error (Option Document)
  record : Document → Except (List Issue) (Graph × List (Text × Graph.Item))
  merge : List (Graph × List (Text × Graph.Item)) → Except Graph.MergeError Graph
  validate : Graph → Except (List Issue) Config

/-- The libraries as the package pins them: js-yaml 4 (`Yaml.load`), zod 3 (`recordOf`, and
`parse` of the merged graph read three levels deep, all the schema looks at) and lodash 4
(`Graph.mergeLayers`). -/
def Libraries.pinned : Libraries where
  load := Yaml.load
  record := recordOf
  merge := Graph.mergeLayers
  validate g := parse (g.unfold 3 (.ref 0))

variable (L : Libraries)

/-- The record a configuration file holds, with the graph of its document: the text is read as
UTF-8, an empty or null document holds no fields, and any other must pass the record schema. -/
def readRecordWith (t : Text) : Except LoadError (Graph × List (Text × Graph.Item)) :=
  match L.load (t.scrub 0xFFFD) with
  | .error e => .error (.yaml e)
  | .ok none => .ok (.empty, [])
  | .ok (some d) =>
    match d.root with
    | .null => .ok (.empty, [])
    | _ => (L.record d).mapError .invalid

/-- Loads the configuration from the defaults text and the user text, if there is one: the
user record is merged over the defaults record, and the merge is validated. -/
def loadWith (defaults : Text) (user : Option Text) : Except LoadError Config := do
  let d ← readRecordWith L defaults
  let u ← match user with
    | none => pure (.empty, [])
    | some t => readRecordWith L t
  let merged ← (L.merge [d, u]).mapError .merge
  (L.validate merged).mapError .invalid

/-- Loads the configuration with the pinned libraries. -/
def loadFrom (defaults : Text) (user : Option Text) : Except LoadError Config :=
  loadWith .pinned defaults user

end Config

end Transcode
