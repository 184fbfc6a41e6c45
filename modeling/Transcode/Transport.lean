import Transcode.PackagePath

/-!
# Where log records go

The `log` section decides the logger's transport. With the file target, records at the
configured level and above go to the file (created with its directory when missing), and
warnings and errors are also shown on standard error, pretty-printed without stack traces,
whatever `pretty` says. With any other target, records are pretty-printed on one line when
`pretty` is set, and written as plain JSON lines otherwise, which needs no transport.

The choice reads the settings as given, without validating them: the target is the file target
only when it is exactly the text `file`, `pretty` counts as set when it is truthy, and the level
is passed on as it is. Only the file target needs its path to be a text; any other file path is
refused with a type fault.

`Transport.options` is the option record the logger takes for a transport.
-/

namespace Transcode

/-- A logger transport. -/
inductive Transport where
  /-- Plain JSON lines on standard output. -/
  | plain
  /-- Pretty single-line records on standard output. -/
  | pretty
  /-- Records at `level` and above to the file `destination`, warnings also on standard error. -/
  | file (destination : Text) (level : Value)
  deriving Repr

/-- The settings of a `log` section as the logger receives them, any values at all (undefined
for a setting that is not there). -/
structure LogSettings where
  level : Value
  target : Value
  filePath : Value
  pretty : Value

/-- The settings a `log` section gives, each read as a property of it (inherited ones too);
undefined where it has none. -/
def LogSettings.ofValue (log : Value) : LogSettings :=
  let setting (k : String) : Value := (log.property? (.ofString k)).getD .undefined
  { level := setting "level", target := setting "target", filePath := setting "filePath",
    pretty := setting "pretty" }

namespace Transport

/-- Whether a target asks for the file target: only the text `file` does. -/
def isFileTarget : Value → Bool
  | .text t => t = .ofString "file"
  | _ => false

/-- The transport the settings ask for; a relative file path is resolved against `root`. Fails
when the file target is asked for with a file path that is no text. -/
def ofSettings (root : Text) (s : LogSettings) : Except Fault Transport :=
  if isFileTarget s.target then
    (fun destination => .file destination s.level) <$> resolvePathArgument root s.filePath
  else .ok (if s.pretty.truthy then .pretty else .plain)

/-- A mapping from plain keys. -/
def record (fields : List (String × Value)) : Value :=
  .mapping (fields.map fun (k, v) => (.ofString k, v))

/-- A text value. -/
def str (s : String) : Value := .text (.ofString s)

/-- The message layout of warnings on standard error: the message, then the error's message,
separated by a colon when both are there. -/
def alertFormat : String :=
  "\x7bif msg\x7d\x7bmsg\x7d\x7bend\x7d\x7bif error.message\x7d\x7bif msg\x7d: \x7bend\x7d\x7berror.message\x7d\x7bend\x7d"

/-- The options the logger takes for a transport; none for plain output. -/
def options : Transport → Option Value
  | .plain => none
  | .pretty => some (record [
      ("target", str "pino-pretty"),
      ("options", record [
        ("colorize", .bool true),
        ("translateTime", str "HH:MM:ss"),
        ("ignore", str "pid,hostname"),
        ("singleLine", .bool true)])])
  | .file destination level => some (record [
      ("targets", .list [
        record [
          ("target", str "pino/file"),
          ("options", record [
            ("destination", .text destination),
            ("mkdir", .bool true)]),
          ("level", level)],
        record [
          ("target", str "pino-pretty"),
          ("options", record [
            ("colorize", .bool true),
            ("ignore", str "pid,hostname,time,stack,err,error"),
            ("messageFormat", str alertFormat),
            ("destination", .number (.ofNat 2))]),
          ("level", str "warn")]])])

end Transport

end Transcode
