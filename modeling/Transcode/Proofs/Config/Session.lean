import Mathlib.Data.List.Induction
import Transcode.Config.Session

/-!
# Sessions: the installed configuration follows the history of calls

A session's state is one optional configuration. Every call either leaves it alone or puts in it
the configuration the call validated or loaded; nothing else ever enters it, a failure in
particular is never kept. This module says which configuration is installed after any sequence
of calls, from the history alone (`configAfter`): the one installed by the last `initConfig`
that returned normally or, before any, the project's once a read has loaded it.

The argument is one step lemma (`installed_call`: what a single call leaves installed) and two
history lemmas (`configAfter_append_initConfig`, `configAfter_append_read`: what one more call
does to the history's configuration). The two sides agree call by call, so by induction over the
history they agree after every run (`installed_run`).

## Main results

* `Session.installed_run`: after any calls from the empty session, the installed configuration
  is the history's.
* `Session.configuration_sessions`: the reply and the next state of every call, after any
  history, in terms of the history's configuration.
-/

namespace Transcode.Session

variable (files : ProjectFiles)

/-! ## The configuration a history installs -/

/-- What a call installs when it returns normally: the validated value or the project's
configuration for `initConfig`, nothing for a read. -/
def Call.installs : Call → Option Config
  | .initConfig (some v) => (Config.parse v).toOption
  | .initConfig none => files.load.toOption
  | .read _ => none

/-- Whether a call reads the configuration. -/
def Call.isRead : Call → Bool
  | .initConfig _ => false
  | .read _ => true

/-- The configuration installed after the calls `cs` from an empty session, said of the history
alone: the one installed by the last `initConfig` that returned normally or, before any, the
project's configuration once a read has loaded it. -/
def configAfter (cs : List Call) : Option Config :=
  match (cs.filterMap (Call.installs files)).getLast? with
  | some c => some c
  | none => if cs.any Call.isRead then files.load.toOption else none

/-- The configuration a read sees: the installed one, else the project's, loaded on the spot. -/
def seenFrom : Option Config → Except LoadError Config
  | some c => .ok c
  | none => files.load

/-- What a read returns from the configuration `c` it sees: the `log` section, the `charsets`
section, or the charset the default names, an unknown name throwing with the name as
configured. -/
def Read.answer : Read → Config → Except Thrown Reply
  | .logConfig, c => .ok (.log c.log)
  | .charsetsConfig, c => .ok (.charsets c.charsets)
  | .defaultCharset, c =>
    match Charset.lookup c.charsets.defaultName with
    | some cs => .ok (.charset cs)
    | none => .error (.fault (.unsupportedCharset c.charsets.defaultName))

@[simp] theorem configAfter_nil : configAfter files [] = none := rfl

/-- One more call that installs: what it installs when it returns normally, else what the
history had installed. -/
theorem configAfter_append_initConfig (cs : List Call) (v : Option Value) :
    configAfter files (cs ++ [.initConfig v]) =
      ((Call.initConfig v).installs files).or (configAfter files cs) := by
  unfold configAfter
  cases hNew : (Call.initConfig v).installs files with
  | none =>
    simp [List.filterMap_append, hNew, Call.isRead]
  | some c =>
    simp [List.filterMap_append, hNew]

/-- One more read: what the history had installed, else the project's configuration when it
loads. -/
theorem configAfter_append_read (cs : List Call) (r : Read) :
    configAfter files (cs ++ [.read r]) = (configAfter files cs).or files.load.toOption := by
  unfold configAfter
  have hRead : (cs ++ [Call.read r]).any Call.isRead = true := by simp [Call.isRead]
  rw [List.filterMap_append, hRead]
  simp only [Call.installs, List.filterMap_cons, List.filterMap_nil, List.append_nil, if_true]
  cases (cs.filterMap (Call.installs files)).getLast? with
  | some c => rfl
  | none =>
    show files.load.toOption =
      (if cs.any Call.isRead then files.load.toOption else none).or files.load.toOption
    split <;> simp

/-! ## One call -/

/-- A read from the session `s` installs what it sees, and fails only when nothing was
installed and the project's files do not load. -/
theorem current_eq (s : Session) :
    s.current files = (seenFrom files s.installed).map fun c => (c, ⟨some c⟩) := by
  rcases s with ⟨_ | c⟩
  · simp only [current, seenFrom]
    cases files.load <;> rfl
  · rfl

/-- **A read**: it answers from the configuration it sees and installs it; when the project's
files do not load, it throws their error and the session stays as it was. -/
theorem call_read (s : Session) (r : Read) :
    call files s (.read r) = match seenFrom files s.installed with
      | .ok c => (r.answer c, ⟨some c⟩)
      | .error e => (.error (.load e), s) := by
  have hCurrent := current_eq files s
  cases r with
  | logConfig =>
    simp only [call, logConfig, hCurrent]
    cases seenFrom files s.installed <;> rfl
  | charsetsConfig =>
    simp only [call, charsetsConfig, hCurrent]
    cases seenFrom files s.installed <;> rfl
  | defaultCharset =>
    simp only [call, defaultCharset, charsetsConfig, hCurrent]
    cases seenFrom files s.installed with
    | error e => rfl
    | ok c =>
      -- the lookup of a present name fails only as an unknown charset
      simp only [Except.map, forName, Check.present, bind, Except.bind, Read.answer]
      cases Charset.lookup c.charsets.defaultName <;> rfl

/-- **An install**: a value is installed exactly when it validates; a refused value leaves the
session as it was. -/
theorem call_initConfig_some (s : Session) (v : Value) :
    call files s (.initConfig (some v)) = match Config.parse v with
      | .ok c => (.ok .done, ⟨some c⟩)
      | .error issues => (.error (.invalid issues), s) := by
  simp only [call, install]
  cases Config.parse v <;> rfl

/-- **A reload**: the project's configuration is installed when its files load; when they do
not, the call throws their error and the session stays as it was. -/
theorem call_initConfig_none (s : Session) :
    call files s (.initConfig none) = match files.load with
      | .ok c => (.ok .done, ⟨some c⟩)
      | .error e => (.error (.load e), s) := by
  simp only [call, reload]
  cases files.load <;> rfl

/-- **What one call leaves installed**, in the terms of `configAfter`: an install puts in what it
installs when it returns normally, a read keeps what is installed or else puts in the project's
configuration when it loads. -/
theorem installed_call (s : Session) (c : Call) :
    (call files s c).2.installed =
      if c.isRead then s.installed.or files.load.toOption
      else (c.installs files).or s.installed := by
  cases c with
  | initConfig v =>
    cases v with
    | some v =>
      simp only [call_initConfig_some, Call.isRead, Call.installs, Bool.false_eq_true, if_false]
      cases Config.parse v <;> rfl
    | none =>
      simp only [call_initConfig_none, Call.isRead, Call.installs, Bool.false_eq_true, if_false]
      cases files.load <;> rfl
  | read r =>
    simp only [call_read, Call.isRead, if_true]
    rcases s with ⟨_ | c⟩
    · simp only [seenFrom]
      cases files.load <;> rfl
    · rfl

/-! ## Every run -/

/-- Running a history and then one more call is one more step of the run. -/
theorem run_append_singleton (s : Session) (cs : List Call) (c : Call) :
    (run files s (cs ++ [c])).2 = (call files (run files s cs).2 c).2 := by
  induction cs generalizing s with
  | nil => rfl
  | cons c' cs ih => exact ih (call files s c').2

/-- The reply at each place of a run is the reply of that call in the state the calls before
it left. -/
theorem run_reply (s : Session) (pre post : List Call) (c : Call) :
    (run files s (pre ++ c :: post)).1[pre.length]? = some (call files (run files s pre).2 c).1 := by
  induction pre generalizing s with
  | nil => rfl
  | cons c' pre ih => exact ih (call files s c').2

/-- **The state is the history's configuration**: after any calls from the empty session, the
installed configuration is the one `configAfter` reads off the calls. -/
theorem installed_run (cs : List Call) :
    (run files empty cs).2.installed = configAfter files cs := by
  -- induction from the end of the history: the step lemma and the history lemma agree
  induction cs using List.reverseRecOn with
  | nil => rfl
  | append_singleton cs c ih =>
    rw [run_append_singleton, installed_call, ih]
    cases c with
    | initConfig v => exact (configAfter_append_initConfig files cs v).symm
    | read r => exact (configAfter_append_read files cs r).symm

/-- **Configuration state over sessions.** After any history `pre` of calls from the empty
session, with `C` the configuration the history installed (`configAfter`):
* the reply at that place of every run that goes on from `pre` is the reply of the call in the
  state `pre` left;
* the installed configuration is `C`;
* `initConfig v` returns normally exactly when `v` validates, and installs the validated value;
  a refused value leaves the state as it was, and so does a failed reload of the project's
  files;
* a read answers from `C` (its `log` or `charsets` section, or the charset its default names,
  an unknown name throwing without changing `C`); with nothing installed it loads the project's
  configuration and keeps it, and when that load fails it throws the load's error and the
  session stays empty, so the next read loads again. -/
theorem configuration_sessions (pre : List Call) :
    (∀ c post, (run files empty (pre ++ c :: post)).1[pre.length]? =
      some (call files (run files empty pre).2 c).1) ∧
    (run files empty pre).2.installed = configAfter files pre ∧
    (∀ v, call files (run files empty pre).2 (.initConfig (some v)) = match Config.parse v with
      | .ok c => (.ok .done, ⟨some c⟩)
      | .error issues => (.error (.invalid issues), (run files empty pre).2)) ∧
    call files (run files empty pre).2 (.initConfig none) = (match files.load with
      | .ok c => (.ok .done, ⟨some c⟩)
      | .error e => (.error (.load e), (run files empty pre).2)) ∧
    (∀ r, call files (run files empty pre).2 (.read r) =
      match seenFrom files (configAfter files pre) with
      | .ok c => (r.answer c, ⟨some c⟩)
      | .error e => (.error (.load e), ⟨none⟩)) := by
  have hState := installed_run files pre
  refine ⟨fun c post => run_reply files empty pre post c, hState,
    fun v => call_initConfig_some files _ v, call_initConfig_none files _, fun r => ?_⟩
  rw [call_read, hState]
  -- a failed read leaves the state it found, and that state had nothing installed
  cases hSeen : seenFrom files (configAfter files pre) with
  | ok c => rfl
  | error e =>
    have hNone : configAfter files pre = none := by
      cases hC : configAfter files pre with
      | none => rfl
      | some c => rw [hC] at hSeen; cases hSeen
    show (Except.error (Thrown.load e), (run files empty pre).2) = (.error (.load e), ⟨none⟩)
    rw [← hNone, ← hState]

end Transcode.Session
