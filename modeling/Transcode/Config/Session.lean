import Transcode.Config.Load
import Transcode.Charset.Basic

/-!
# The installed configuration

A session holds at most one configuration. Installing a value validates it first: an invalid
value is refused with its issues and the installed configuration stays as it was. Installing
nothing loads the project's configuration files; a failed load also leaves the state as it was.

The getters read the installed configuration. When none is installed they load the project's
files first and keep what they hold; when that load fails the state stays empty, so the next
getter tries again. The default charset is looked up by name after the read, so a name that
denotes no charset fails the lookup while the configuration read on the way stays installed.

What the project's files hold is part of the environment, not of the session: every operation
that may load them takes them as `ProjectFiles`, by default the files the package ships.
`Session.call` is one call of the session's interface and `Session.run` a sequence of them.
-/

namespace Transcode

/-- The project's configuration files as they stand: the defaults and, when there is one, the
user file. -/
structure ProjectFiles where
  defaults : Text
  user : Option Text

namespace ProjectFiles

/-- The files of the package as it ships: the bundled defaults and no user file. -/
def bundled : ProjectFiles := ⟨Config.bundledDefaults, none⟩

/-- The configuration the files hold. -/
def load (files : ProjectFiles) : Except LoadError Config :=
  Config.loadFrom files.defaults files.user

end ProjectFiles

/-- The configuration state: the installed configuration, if any. -/
structure Session where
  installed : Option Config
  deriving DecidableEq, Repr

namespace Session

/-- A session with nothing installed. -/
def empty : Session := ⟨none⟩

/-- The session after installing a value: refused with its issues when the value is invalid,
in which case the state stays as it was. -/
def install (v : Value) : Except (List Issue) Session :=
  match Config.parse v with
  | .ok c => .ok ⟨some c⟩
  | .error issues => .error issues

/-- The session after installing the project's configuration; when the load fails the state
stays as it was. -/
def reload (files : ProjectFiles := .bundled) : Except LoadError Session :=
  match files.load with
  | .ok c => .ok ⟨some c⟩
  | .error e => .error e

/-- The installed configuration, loading the project's when none is installed yet. -/
def current (s : Session) (files : ProjectFiles := .bundled) :
    Except LoadError (Config × Session) :=
  match s.installed with
  | some c => .ok (c, s)
  | none =>
    match files.load with
    | .ok c => .ok (c, ⟨some c⟩)
    | .error e => .error e

/-- The `log` section of the configuration. -/
def logConfig (s : Session) (files : ProjectFiles := .bundled) :
    Except LoadError (LogConfig × Session) :=
  (s.current files).map fun (c, s) => (c.log, s)

/-- The `charsets` section of the configuration. -/
def charsetsConfig (s : Session) (files : ProjectFiles := .bundled) :
    Except LoadError (CharsetsConfig × Session) :=
  (s.current files).map fun (c, s) => (c.charsets, s)

/-- The charset the configuration names as the default, or the fault of looking the name up;
either way the configuration read on the way stays installed. -/
def defaultCharset (s : Session) (files : ProjectFiles := .bundled) :
    Except LoadError (Except Fault Charset × Session) :=
  (s.charsetsConfig files).map fun (cs, s) => (forName (some cs.defaultName), s)

/-- A read of the configuration, which loads the project's when none is installed. -/
inductive Read where
  | logConfig
  | charsetsConfig
  | defaultCharset

/-- A call of the session's interface. -/
inductive Call where
  /-- Install a value, or the project's configuration when no value is given. -/
  | initConfig (value : Option Value)
  | read (r : Read)

/-- What a call returns. -/
inductive Reply where
  /-- `initConfig` returned. -/
  | done
  | log (c : LogConfig)
  | charsets (c : CharsetsConfig)
  | charset (c : Charset)
  deriving DecidableEq, Repr

/-- Why a call threw. -/
inductive Thrown where
  /-- The value breaks the schema. -/
  | invalid (issues : List Issue)
  /-- The project's files could not be loaded. -/
  | load (e : LoadError)
  /-- The configured default names no charset. -/
  | fault (f : Fault)

/-- One call: what it returns or throws, and the state after it. -/
def call (files : ProjectFiles) (s : Session) : Call → Except Thrown Reply × Session
  | .initConfig (some v) =>
    match install v with
    | .ok s' => (.ok .done, s')
    | .error issues => (.error (.invalid issues), s)
  | .initConfig none =>
    match reload files with
    | .ok s' => (.ok .done, s')
    | .error e => (.error (.load e), s)
  | .read .logConfig =>
    match s.logConfig files with
    | .ok (c, s') => (.ok (.log c), s')
    | .error e => (.error (.load e), s)
  | .read .charsetsConfig =>
    match s.charsetsConfig files with
    | .ok (c, s') => (.ok (.charsets c), s')
    | .error e => (.error (.load e), s)
  | .read .defaultCharset =>
    match s.defaultCharset files with
    | .ok (.ok c, s') => (.ok (.charset c), s')
    | .ok (.error f, s') => (.error (.fault f), s')
    | .error e => (.error (.load e), s)

/-- A sequence of calls: what each returns or throws, in order, and the state after the last. -/
def run (files : ProjectFiles) (s : Session) : List Call → List (Except Thrown Reply) × Session
  | [] => ([], s)
  | c :: cs =>
    let (r, s') := call files s c
    let (rs, s'') := run files s' cs
    (r :: rs, s'')

end Session

end Transcode
