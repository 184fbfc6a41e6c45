import Transcode.Proofs.Config.Loading
import Transcode.Proofs.Text.CodePoints

/-!
# How loading the configuration fails

Loading reads the defaults file, then the user file, merges the user's record over the
defaults', and validates the merge (`Config.loadWith`); the first step that fails gives the
answer, whatever the libraries do. In the terms of the files:

* a file that is not YAML fails with its YAML error;
* a file whose document is neither empty nor null fails with the record schema's issues when
  the schema rejects it;
* the merge fails with its own error;
* only then does validation report its issues.

A YAML error or a merge error writes nothing to standard error and reaches the caller as it is.
An issue list writes a heading and one line per issue, the path joined with `.` and the
message, and fails with a message naming both files. The user file is not read when the
defaults fail, and no failure yields a configuration.

With the pinned libraries, binary data passes the record schema (its bytes become fields under
their indices), and the merge fails on keys the schema never reads as well.

## Main results

* `Config.readRecordWith_ok_iff`: the files that pass reading.
* `Config.loadWith_precedence`: the order of the failures and what each one writes.
-/

namespace Transcode

/-- The failure of a computation that failed; `none` for one that succeeded. -/
def failure? {ε α : Type} : Except ε α → Option ε
  | .error e => some e
  | .ok _ => none

namespace Config

open Transcode.Graph (Item)

section Libraries

variable (L : Libraries) {t : Text}

/-! ## Reading one file -/

theorem readRecordWith_of_load_error {y : Yaml.Error} (h : L.load (t.scrub 0xFFFD) = .error y) :
    readRecordWith L t = .error (.yaml y) := by
  rw [readRecordWith, h]

/-- A document that is neither empty nor null and that the record schema rejects fails with the
schema's issues. -/
theorem readRecordWith_of_record_error {d : Document} {issues : List Issue}
    (h : L.load (t.scrub 0xFFFD) = .ok (some d)) (hNull : d.root ≠ .null)
    (hRecord : L.record d = .error issues) : readRecordWith L t = .error (.invalid issues) := by
  rw [readRecordWith, h]
  dsimp only
  split
  · rename_i hRoot
    exact absurd hRoot hNull
  · rw [hRecord]
    rfl

/-- **The files that pass reading**: no document, or a document that is null or that the
record schema accepts. -/
theorem readRecordWith_ok_iff (t : Text) :
    (∃ l, readRecordWith L t = .ok l) ↔ L.load (t.scrub 0xFFFD) = .ok none ∨
      ∃ d, L.load (t.scrub 0xFFFD) = .ok (some d) ∧ (d.root = .null ∨ ∃ l, L.record d = .ok l) := by
  rw [readRecordWith]
  cases hLoad : L.load (t.scrub 0xFFFD) with
  | error y => simp
  | ok doc =>
    cases doc with
    | none => simp
    | some d =>
      simp only [Except.ok.injEq, reduceCtorEq, Option.some.injEq, exists_eq_left', false_or]
      -- a null root passes; any other root passes as the record schema does
      split
      · rename_i hRoot
        simp [hRoot]
      · rename_i hRoot
        cases hRecord : L.record d with
        | error issues => simpa [mapError_error] using hRoot
        | ok l => simp [mapError_ok]

/-! ## The steps of loading -/

/-- A failure of the defaults is the answer, whatever the user file. -/
theorem loadWith_of_defaults_error {D : Text} {e : LoadError} (h : readRecordWith L D = .error e)
    (U : Option Text) : loadWith L D U = .error e := by
  rw [loadWith_eq, h]
  rfl

/-- With the defaults read, a failure of the user file is the answer. -/
theorem loadWith_of_user_error {D : Text} {dl : Graph × List (Text × Item)} {e : LoadError}
    (hD : readRecordWith L D = .ok dl) (hU : readRecordWith L t = .error e) :
    loadWith L D (some t) = .error e := by
  rw [loadWith_eq, hD]
  show ((readRecordWith L t).bind _) = _
  rw [hU]
  rfl

/-- With both files read, a failed merge is the answer. -/
theorem loadWith_of_merge_error {D : Text} {U : Option Text} {dl ul : Graph × List (Text × Item)}
    {e : Graph.MergeError} (hD : readRecordWith L D = .ok dl)
    (hU : U.elim (.ok (.empty, [])) (readRecordWith L) = .ok ul) (hM : L.merge [dl, ul] = .error e) :
    loadWith L D U = .error (.merge e) := by
  rw [loadWith_of_read L hD hU, hM]
  rfl

/-- With the merge done, the answer is validation's: the configuration, or its issues. -/
theorem loadWith_of_merged {D : Text} {U : Option Text} {dl ul : Graph × List (Text × Item)}
    {g : Graph} (hD : readRecordWith L D = .ok dl)
    (hU : U.elim (.ok (.empty, [])) (readRecordWith L) = .ok ul) (hM : L.merge [dl, ul] = .ok g) :
    loadWith L D U = (L.validate g).mapError .invalid := by
  rw [loadWith_of_read L hD hU, hM]
  rfl

/-- **The order of the failures of loading, and what each writes**, whatever the libraries.
The defaults fail first, whatever the user file: with their YAML error, or with the record
schema's issues when their document is neither empty nor null and the schema rejects it. With
the defaults read, the user file fails the same way. A file passes when it has no document, a
null one, or one the record schema accepts. With both read, a failed merge fails the load with
its own error, and otherwise the answer is validation's: the configuration or its issues. A YAML
or merge error writes nothing to standard error; an issue list writes a heading and one line per
issue, and fails with a message naming both files. -/
theorem loadWith_precedence :
    (∀ D U y, L.load (D.scrub 0xFFFD) = .error y → loadWith L D U = .error (.yaml y)) ∧
    (∀ D U d issues, L.load (D.scrub 0xFFFD) = .ok (some d) → d.root ≠ .null →
      L.record d = .error issues → loadWith L D U = .error (.invalid issues)) ∧
    (∀ D t dl y, readRecordWith L D = .ok dl → L.load (t.scrub 0xFFFD) = .error y →
      loadWith L D (some t) = .error (.yaml y)) ∧
    (∀ D t dl d issues, readRecordWith L D = .ok dl → L.load (t.scrub 0xFFFD) = .ok (some d) →
      d.root ≠ .null → L.record d = .error issues →
      loadWith L D (some t) = .error (.invalid issues)) ∧
    (∀ t, (∃ l, readRecordWith L t = .ok l) ↔ L.load (t.scrub 0xFFFD) = .ok none ∨
      ∃ d, L.load (t.scrub 0xFFFD) = .ok (some d) ∧ (d.root = .null ∨ ∃ l, L.record d = .ok l)) ∧
    (∀ D U dl ul e, readRecordWith L D = .ok dl →
      U.elim (.ok (.empty, [])) (readRecordWith L) = .ok ul →
      L.merge [dl, ul] = .error e → loadWith L D U = .error (.merge e)) ∧
    (∀ D U dl ul g, readRecordWith L D = .ok dl →
      U.elim (.ok (.empty, [])) (readRecordWith L) = .ok ul →
      L.merge [dl, ul] = .ok g → loadWith L D U = (L.validate g).mapError .invalid) ∧
    (∀ y, (LoadError.yaml y).report = []) ∧ (∀ e, (LoadError.merge e).report = []) ∧
    (∀ issues, (LoadError.invalid issues).report =
        .ofString "Configuration validation failed:" :: issues.map (fun i =>
          .ofString "  - " ++ Text.intercalate (.ofString ".") i.path ++ .ofString ": " ++
            i.message) ∧
      (LoadError.invalid issues).message =
        .ofString "Invalid configuration. Please check config.yaml and config.defaults.yaml") :=
  ⟨fun _ U _ h => loadWith_of_defaults_error L (readRecordWith_of_load_error L h) U,
    fun _ U _ _ h hNull hRecord =>
      loadWith_of_defaults_error L (readRecordWith_of_record_error L h hNull hRecord) U,
    fun _ _ _ _ hD h => loadWith_of_user_error L hD (readRecordWith_of_load_error L h),
    fun _ _ _ _ _ hD h hNull hRecord =>
      loadWith_of_user_error L hD (readRecordWith_of_record_error L h hNull hRecord),
    readRecordWith_ok_iff L,
    fun _ _ _ _ _ hD hU hM => loadWith_of_merge_error L hD hU hM,
    fun _ _ _ _ _ hD hU hM => loadWith_of_merged L hD hU hM,
    fun _ => rfl, fun _ => rfl,
    fun issues => ⟨by simp only [LoadError.report, Issue.line, Text.append_assoc], rfl⟩⟩

end Libraries

/-- A list as the defaults' document fails at the root with the pinned libraries, with no user
file. -/
theorem loadFrom_precedence_list :
    let d : Document := ⟨⟨#[.list [.text (.ofString "just"), .text (.ofString "a list")] 0 [],
      .list [] 0 [], .mapping [], .list [] 0 [], .mapping []]⟩, .ref 0⟩
    Libraries.pinned.load ((Text.ofString "- just\n- a list\n").scrub 0xFFFD) = .ok (some d) ∧
      d.root ≠ .null ∧
      Libraries.pinned.record d = .error [Schema.wrongKind [] "object" (some (d.graph.unfold 0 d.root))] ∧
      loadWith .pinned (.ofString "- just\n- a list\n") none =
        .error (.invalid [Schema.wrongKind [] "object" (some (d.graph.unfold 0 d.root))]) :=
  have hLoad : Libraries.pinned.load ((Text.ofString "- just\n- a list\n").scrub 0xFFFD) =
      .ok (some ⟨⟨#[.list [.text (.ofString "just"), .text (.ofString "a list")] 0 [],
        .list [] 0 [], .mapping [], .list [] 0 [], .mapping []]⟩, .ref 0⟩) :=
    eq_ok_of_toOption (by decide +kernel)
  ⟨hLoad, by decide, rfl,
    (loadWith_precedence .pinned).2.1 _ none _ _ hLoad (by decide) rfl⟩

/-- **Binary data and the merge, with the pinned libraries.** Binary data is no mapping, yet
as the user's document it passes as a record, and the bundled defaults load unchanged. And with
both files read as records, a merge that fails on `x`, a key the schema never reads, fails the
load with its own error and writes nothing. -/
theorem loadFrom_precedence_limits :
    Libraries.pinned.load ((Text.ofString "!!binary aGk=\n").scrub 0xFFFD) =
        .ok (some ⟨⟨#[.bytes [0x68, 0x69] []]⟩, .ref 0⟩) ∧
      loadFrom bundledDefaults (some (.ofString "!!binary aGk=\n")) =
        .ok ⟨⟨.info, .stdout, .ofString "backport-shims.log", true⟩, ⟨.ofString "UTF-8"⟩⟩ ∧
      (readRecordWith .pinned (.ofString ("log: \x7blevel: info, target: stdout, filePath: a, pretty: true\x7d\n" ++
          "charsets: \x7bdefault: UTF-8\x7d\nx: [1]\n"))).toOption.isSome ∧
      (readRecordWith .pinned (.ofString "x: \x7blength: -1\x7d\n")).toOption.isSome ∧
      (failure? (loadFrom (.ofString ("log: \x7blevel: info, target: stdout, filePath: a, pretty: true\x7d\n" ++
          "charsets: \x7bdefault: UTF-8\x7d\nx: [1]\n")) (some (.ofString "x: \x7blength: -1\x7d\n")))).map
        (fun e => (e.report, e.message)) = some ([], .ofString "Invalid array length") :=
  ⟨eq_ok_of_toOption (by decide +kernel), eq_ok_of_toOption (by decide +kernel),
    by decide +kernel, by decide +kernel, by decide +kernel⟩

end Config

end Transcode
