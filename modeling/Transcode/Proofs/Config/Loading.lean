import Transcode.Proofs.Config.Reading

/-!
# The override law of the configuration loader

`Config.loadWith` reads the defaults text and the user text as records, merges the user's
record over the defaults' into an empty mapping, and validates the result, with whatever
libraries it is given. The law holds for every merge and validation that meet two contracts,
stated here as properties of the libraries: the merge takes each section through one merge step
of each record in turn (`Libraries.MergesSectionwise`, lodash's `merge` key by key), and
validation takes each schema field from the sections the merged graph shows
(`Libraries.ValidatesShown`, zod's object schema). The pinned libraries meet both
(`Libraries.pinned_mergesSectionwise`, `Libraries.pinned_validatesShown`): section by section,
`Graph.mergeLayers` is a step of the defaults' record from nothing followed by a step of the
user's (`Graph.mergeLayers_sections`), and `Config.parse` reads what the second step leaves
(`Graph.parse_unfold_eq_ok`).

Put together, for records without cycles: loading succeeds exactly when the merge does, each
section of the user's record is absent or a mapping merged over defaults that hold no list or
instant there, and the value the law picks for each schema field (the user's where the user's
section has the key, the defaults' otherwise) is valid; the configuration then holds those
values. A mapping of the user's merged over a list or an instant of the defaults is written into
that list or instant, which validation refuses.

## Main results

* `Graph.mergeLayers_sections`: each section of a merge of two layers is two steps from blank.
* `Config.field_merged`: the field validation reads after the two steps.
* `Config.loadWith_override`: the override law, for libraries that meet the contracts.
-/

namespace Transcode

namespace Graph

/-- A graph has no cycle: some rank drops along every reference. -/
def Acyclic (g : Graph) : Prop := ∃ rank, Ranked g rank

/-- The keys of a mapping node, none for any other node. -/
def Node.mappingKeys : Node → List Text
  | .mapping fields => fields.map (·.1)
  | _ => []

/-- Each mapping of a graph holds each key once. -/
def Keyed (g : Graph) : Prop := ∀ m node, g.node? m = some node → node.mappingKeys.Nodup

/-- A layer the override law speaks of: its graph has no cycle, refers only to nodes it has,
and holds each key once in each mapping and in its record. -/
structure Layer.Sound (l : Graph × List (Text × Item)) : Prop where
  acyclic : l.1.Acyclic
  closed : Layer.Closed l
  keyed : l.1.Keyed

/-- A property of every node of a graph, checked node by node. -/
theorem forall_node? {g : Graph} {P : Nat → Node → Prop}
    (h : ∀ m (hm : m < g.nodes.size), P m g.nodes[m]) :
    ∀ m node, g.node? m = some node → P m node := by
  intro m node hNode
  obtain ⟨hm, hEq⟩ := Array.getElem?_eq_some_iff.mp hNode
  exact hEq ▸ h m hm


/-! ## Two layers -/

/-- The empty mapping the layers are merged into. -/
theorem shows_initial (s : Text) : Shows ⟨#[.mapping []]⟩ s .blank := by
  have hNone : ∀ m c, ¬ Holds ⟨#[.mapping []]⟩ m c := by
    rintro m c ⟨node, hNode, hc⟩
    obtain ⟨hm, hEq⟩ := Array.getElem?_eq_some_iff.mp hNode
    have hm0 : m = 0 := by simpa using hm
    subst hm0
    simp only [List.getElem_toArray, List.getElem_singleton] at hEq
    subst hEq
    simp [Node.refs, Node.items] at hc
  refine ⟨⟨by decide, fun m c h => absurd h (hNone m c), fun m h => hNone m 0 h,
    fun _ h => h.elim, fun _ h => h.elim⟩, [], rfl, fun c => by simp [lookup]⟩

theorem mergeLayers_pair {d u : Graph × List (Text × Item)} {g : Graph} :
    mergeLayers [d, u] = .ok g ↔
      ∃ g1, mergeLayer ⟨#[.mapping []]⟩ d = .ok g1 ∧ mergeLayer g1 u = .ok g := by
  unfold mergeLayers
  simp only [List.foldlM_cons, List.foldlM_nil]
  cases mergeLayer ⟨#[.mapping []]⟩ d with
  | error e => simp [bind, Except.bind]
  | ok g1 =>
    simp only [bind, Except.bind, Except.ok.injEq, exists_eq_left']
    cases mergeLayer g1 u <;> simp [pure, Except.pure]

/-- **Each section of a merge of two layers** is a step of the first layer from blank followed
by a step of the second. -/
theorem mergeLayers_sections {d u : Graph × List (Text × Item)} (hd : Layer.Sound d)
    (hu : Layer.Sound u) {s : Text} (hs : s ≠ protoKey) {g : Graph}
    (h : mergeLayers [d, u] = .ok g) :
    ∃ σd σu, Section.Merged d.1 (lookup d.2 s) .blank σd ∧
      Section.Merged u.1 (lookup u.2 s) σd σu ∧ Shows g s σu := by
  obtain ⟨g1, h1, h2⟩ := mergeLayers_pair.mp h
  obtain ⟨rd, hRd⟩ := hd.acyclic
  obtain ⟨ru, hRu⟩ := hu.acyclic
  obtain ⟨σd, hD, hShows1⟩ := mergeLayer_section hRd hd.closed hs h1 (shows_initial s)
  obtain ⟨σu, hU, hShows2⟩ := mergeLayer_section hRu hu.closed hs h2 hShows1
  exact ⟨σd, σu, hD, hU, hShows2⟩

end Graph

namespace Config

open Transcode.Graph (Item Section Shows lookup)

/-- The mapping a layer holds at section `s`: the fields of the node its record names there,
when that node is a mapping. -/
def sectionMapping? (l : Graph × List (Text × Item)) (s : Text) :
    Option (List (Text × Item)) :=
  match lookup l.2 s with
  | some (.ref c) =>
    match l.1.node? c with
    | some (.mapping F) => some F
    | _ => none
  | _ => none

/-- Whether a layer holds a list or an instant at section `s`. -/
def holdsContainer (l : Graph × List (Text × Item)) (s : Text) : Bool :=
  match lookup l.2 s with
  | some (.ref c) =>
    match l.1.node? c with
    | some (.list ..) | some (.date ..) => true
    | _ => false
  | _ => false

/-- Section `s` of the user's layer `u` merges as the override law has it: `u` has no such
section, or a mapping there over defaults `d` that hold no list or instant there. -/
def Mergeable (d u : Graph × List (Text × Item)) (s : Text) : Prop :=
  lookup u.2 s = none ∨ ((sectionMapping? u s).isSome ∧ holdsContainer d s = false)

instance (d u : Graph × List (Text × Item)) (s : Text) : Decidable (Mergeable d u s) :=
  inferInstanceAs (Decidable (_ ∨ _))

/-- The value the override law picks for field `f` of section `s`: the user's where the user's
section is a mapping with key `f`, the defaults' otherwise. -/
def chosen (d u : Graph × List (Text × Item)) (s f : Text) : Option Item :=
  ((sectionMapping? u s).bind (lookup · f)).or ((sectionMapping? d s).bind (lookup · f))

/-! ## What the two steps leave -/

section Steps

variable {d u : Graph × List (Text × Item)} {s f : Text}

/-- A mapping of a keyed graph, as a section of the merge lists it, has the fields of the
mapping under every key but an array index. -/
theorem lookup_mapping_fields (hKeyed : Graph.Keyed d.1) {c : Nat} {F : List (Text × Item)}
    (hNode : d.1.node? c = some (.mapping F)) (hf : arrayIndex? f = none) :
    lookup (Graph.enumerationOrder F).reverse f = lookup F f := by
  rw [Graph.lookup_enumerationOrder_reverse hf,
    Graph.lookup_reverse_of_nodup (hKeyed c _ hNode)]

/-- **What the defaults leave of a section**: the fields of their mapping there, and a closed
section exactly where they hold a list or an instant. -/
theorem merged_blank {σ : Section} (hKeyed : Graph.Keyed d.1) (hf : arrayIndex? f = none)
    (hD : Section.Merged d.1 (lookup d.2 s) .blank σ) :
    σ.field f = (sectionMapping? d s).bind (lookup · f) ∧
      (σ = .closed ↔ holdsContainer d s = true) := by
  cases hLook : lookup d.2 s with
  | none =>
    rw [hLook] at hD
    simp only [Section.Merged] at hD
    subst hD
    simp [sectionMapping?, holdsContainer, hLook, Section.field]
  | some v =>
    rw [hLook] at hD
    cases hD with
    | scalar hv =>
      cases v <;> simp_all [sectionMapping?, holdsContainer, Section.field, Item.isScalar]
    | instant hNode => simp [sectionMapping?, holdsContainer, hLook, hNode, Section.field]
    | list hNode => simp [sectionMapping?, holdsContainer, hLook, hNode, Section.field]
    | bytesCopy hNode =>
      simp only [sectionMapping?, holdsContainer, hLook, hNode, Section.field, Option.bind_none]
      exact ⟨rfl, by simp⟩
    | bytesList hne hNode => exact absurd rfl hne
    | mappingNew hNode =>
      simp [sectionMapping?, holdsContainer, hLook, hNode, Section.field,
        lookup_mapping_fields hKeyed hNode hf]

/-- **What validation reads of a section after both layers**: the value the override law
picks, where the section merges as the law has it, and nothing otherwise. -/
theorem field_merged {σd σu : Section} (hdK : Graph.Keyed d.1) (huK : Graph.Keyed u.1)
    (hf : arrayIndex? f = none) (hD : Section.Merged d.1 (lookup d.2 s) .blank σd)
    (hU : Section.Merged u.1 (lookup u.2 s) σd σu) :
    σu.field f = if Mergeable d u s then chosen d u s f else none := by
  obtain ⟨hField, hClosed⟩ := merged_blank hdK hf hD
  cases hLook : lookup u.2 s with
  | none =>
    rw [hLook] at hU
    simp only [Section.Merged] at hU
    subst hU
    have hMergeable : Mergeable d u s := Or.inl hLook
    rw [if_pos hMergeable, hField]
    simp [chosen, sectionMapping?, hLook]
  | some v =>
    rw [hLook] at hU
    -- a user section that is no mapping leaves nothing validation takes
    have hNoMapping : sectionMapping? u s = none → σu.field f = none →
        σu.field f = if Mergeable d u s then chosen d u s f else none := by
      intro hNone hEmpty
      rw [hEmpty, if_neg]
      rintro (hAbsent | ⟨hSome, -⟩)
      · rw [hLook] at hAbsent
        cases hAbsent
      · rw [hNone] at hSome
        cases hSome
    cases hU with
    | scalar hv =>
      refine hNoMapping ?_ rfl
      cases v <;> simp_all [sectionMapping?, Item.isScalar]
    | instant hNode => exact hNoMapping (by simp [sectionMapping?, hLook, hNode]) rfl
    | list hNode => exact hNoMapping (by simp [sectionMapping?, hLook, hNode]) rfl
    | bytesCopy hNode => exact hNoMapping (by simp [sectionMapping?, hLook, hNode]) rfl
    | bytesList hne hNode => exact hNoMapping (by simp [sectionMapping?, hLook, hNode]) rfl
    | @mappingNew c F hNode =>
      -- a mapping over nothing: the user's fields alone
      have hMapping : sectionMapping? u s = some F := by simp [sectionMapping?, hLook, hNode]
      have hOpen : holdsContainer d s = false := by simpa using mt hClosed.mpr (by simp)
      have hMergeable : Mergeable d u s := Or.inr ⟨by simp [hMapping], hOpen⟩
      rw [if_pos hMergeable]
      simp only [Section.field] at hField ⊢
      simp [chosen, hMapping, ← hField, lookup_mapping_fields huK hNode hf]
    | mappingClosed hNode =>
      -- a mapping over a list or an instant leaves a list or an instant
      rw [if_neg]
      · rfl
      rintro (hAbsent | ⟨-, hOpen⟩)
      · rw [hLook] at hAbsent
        cases hAbsent
      · rw [hClosed.mp rfl] at hOpen
        cases hOpen
    | @mappingInto c F G hNode =>
      -- a mapping over an object: the user's fields, then the others
      have hMapping : sectionMapping? u s = some F := by simp [sectionMapping?, hLook, hNode]
      have hOpen : holdsContainer d s = false := by simpa using mt hClosed.mpr (by simp)
      have hMergeable : Mergeable d u s := Or.inr ⟨by simp [hMapping], hOpen⟩
      rw [if_pos hMergeable]
      simp only [Section.field] at hField ⊢
      rw [Graph.lookup_append, lookup_mapping_fields huK hNode hf, hField]
      simp [chosen, hMapping]

end Steps

/-! ## The loader over its libraries -/

/-- A merge that behaves as lodash's `merge({}, d, u)` does, key by key: for two sound records,
each section of the merged graph but `__proto__` is what one merge step of the first record's
value leaves from nothing, followed by one step of the second record's value, and the graph
shows it as its own. -/
def Libraries.MergesSectionwise (L : Libraries) : Prop :=
  ∀ {d u : Graph × List (Text × Item)} {g : Graph}, Graph.Layer.Sound d → Graph.Layer.Sound u →
    L.merge [d, u] = .ok g → ∀ s, s ≠ Graph.protoKey →
      ∃ σd σu, Section.Merged d.1 (lookup d.2 s) .blank σd ∧
        Section.Merged u.1 (lookup u.2 s) σd σu ∧ Shows g s σu

/-- A validation that behaves as zod's `configSchema` does on a graph that shows its `log` and
`charsets` sections: it succeeds with the configuration whose level and target are the options
named by those sections' texts, whose file path and default charset are their texts and whose
`pretty` is their boolean, with a default charset of at least one unit. -/
def Libraries.ValidatesShown (L : Libraries) : Prop :=
  ∀ {g : Graph} {σL σC : Section} {C : Config}, Shows g (.ofString "log") σL →
    Shows g (.ofString "charsets") σC →
    (L.validate g = .ok C ↔
      (σL.field (.ofString "level") = some (.text (.ofString C.log.level.name)) ∧
        σL.field (.ofString "target") = some (.text (.ofString C.log.target.name)) ∧
        σL.field (.ofString "filePath") = some (.text C.log.filePath) ∧
        σL.field (.ofString "pretty") = some (.bool C.log.pretty)) ∧
      σC.field (.ofString "default") = some (.text C.charsets.defaultName) ∧
        1 ≤ C.charsets.defaultName.length)

/-- The pinned merge meets its contract. -/
theorem Libraries.pinned_mergesSectionwise : Libraries.pinned.MergesSectionwise :=
  fun hd hu hg _ hs => Graph.mergeLayers_sections hd hu hs hg

/-- The pinned validation meets its contract. -/
theorem Libraries.pinned_validatesShown : Libraries.pinned.ValidatesShown :=
  fun hL hC => Graph.parse_unfold_eq_ok hL hC

theorem mapError_error {ε ε' α : Type} (f : ε → ε') (e : ε) :
    (Except.error e : Except ε α).mapError f = .error (f e) := rfl

theorem mapError_ok {ε ε' α : Type} (f : ε → ε') (a : α) :
    (Except.ok a : Except ε α).mapError f = .ok a := rfl

section Libraries

variable (L : Libraries)

/-- Loading is reading both files, merging and validating, each step stopping at its failure; a
missing user file reads as no record. -/
theorem loadWith_eq (D : Text) (U : Option Text) :
    loadWith L D U = (readRecordWith L D).bind fun d =>
      (U.elim (.ok (.empty, [])) (readRecordWith L)).bind fun u =>
        ((L.merge [d, u]).mapError .merge).bind fun g => (L.validate g).mapError .invalid := by
  cases U <;> rfl

/-- With both files read, loading is merging the records and validating the merge. -/
theorem loadWith_of_read {D : Text} {U : Option Text} {d u : Graph × List (Text × Item)}
    (hd : readRecordWith L D = .ok d) (hu : U.elim (.ok (Graph.empty, [])) (readRecordWith L) = .ok u) :
    loadWith L D U =
      ((L.merge [d, u]).mapError .merge).bind fun g => (L.validate g).mapError .invalid := by
  rw [loadWith_eq, hd]
  show (U.elim (.ok (Graph.empty, [])) (readRecordWith L)).bind _ = _
  rw [hu]
  rfl

/-- With both files read, loading succeeds exactly when the merge does and validation then
does. -/
theorem loadWith_eq_ok {D : Text} {U : Option Text} {d u : Graph × List (Text × Item)}
    (hd : readRecordWith L D = .ok d) (hu : U.elim (.ok (Graph.empty, [])) (readRecordWith L) = .ok u)
    {C : Config} :
    loadWith L D U = .ok C ↔ ∃ g, L.merge [d, u] = .ok g ∧ L.validate g = .ok C := by
  rw [loadWith_of_read L hd hu]
  cases hMerge : L.merge [d, u] with
  | error e => simp [mapError_error, Except.bind]
  | ok g =>
    cases hValid : L.validate g with
    | error issues => simp [mapError_ok, mapError_error, Except.bind, hValid]
    | ok c => simp [mapError_ok, Except.bind, hValid]

/-- **The override law of the configuration loader**, for every merge and validation that meet
their contracts. Take a defaults text `D` and a user text `U` (none for a missing file) whose
records are sound. Loading succeeds with configuration `C` exactly when the merge succeeds, both
sections of the user's record merge as the law has it (absent, or a mapping over defaults that
hold no list or instant there), and the value the law picks for each schema field is `C`'s: the
level and the target by the names of their options, the file path and the default charset as
texts, `pretty` as a boolean, and a default charset of at least one unit. -/
theorem loadWith_override (hMerge : L.MergesSectionwise) (hValidate : L.ValidatesShown)
    {D : Text} {U : Option Text} {d u : Graph × List (Text × Item)}
    (hd : readRecordWith L D = .ok d) (hu : U.elim (.ok (Graph.empty, [])) (readRecordWith L) = .ok u)
    (hdSound : Graph.Layer.Sound d) (huSound : Graph.Layer.Sound u) (C : Config) :
    loadWith L D U = .ok C ↔
      (∃ g, L.merge [d, u] = .ok g) ∧
      Mergeable d u (.ofString "log") ∧ Mergeable d u (.ofString "charsets") ∧
      chosen d u (.ofString "log") (.ofString "level") =
        some (.text (.ofString C.log.level.name)) ∧
      chosen d u (.ofString "log") (.ofString "target") =
        some (.text (.ofString C.log.target.name)) ∧
      chosen d u (.ofString "log") (.ofString "filePath") = some (.text C.log.filePath) ∧
      chosen d u (.ofString "log") (.ofString "pretty") = some (.bool C.log.pretty) ∧
      chosen d u (.ofString "charsets") (.ofString "default") =
        some (.text C.charsets.defaultName) ∧
      1 ≤ C.charsets.defaultName.length := by
  rw [loadWith_eq_ok L hd hu]
  -- each section of the merge, and each field validation reads of it
  have hSection : ∀ {g} (s : Text), L.merge [d, u] = .ok g → s ≠ Graph.protoKey →
      ∃ σ, Shows g s σ ∧ ∀ f, arrayIndex? f = none →
        σ.field f = if Mergeable d u s then chosen d u s f else none := by
    intro g s hg hs
    obtain ⟨σd, σu, hD, hU, hShows⟩ := hMerge hdSound huSound hg s hs
    exact ⟨σu, hShows, fun f hf => field_merged hdSound.keyed huSound.keyed hf hD hU⟩
  constructor
  · rintro ⟨g, hg, hValid⟩
    obtain ⟨σL, hL, hFieldL⟩ := hSection (.ofString "log") hg (by decide)
    obtain ⟨σC, hC, hFieldC⟩ := hSection (.ofString "charsets") hg (by decide)
    rw [hValidate hL hC, hFieldL (.ofString "level") (by decide),
      hFieldL (.ofString "target") (by decide), hFieldL (.ofString "filePath") (by decide),
      hFieldL (.ofString "pretty") (by decide), hFieldC (.ofString "default") (by decide)]
      at hValid
    simp only [Option.ite_none_right_eq_some] at hValid
    obtain ⟨⟨⟨hML, h1⟩, ⟨-, h2⟩, ⟨-, h3⟩, ⟨-, h4⟩⟩, ⟨hMC, h5⟩, hLen⟩ := hValid
    exact ⟨⟨g, hg⟩, hML, hMC, h1, h2, h3, h4, h5, hLen⟩
  · rintro ⟨⟨g, hg⟩, hML, hMC, h1, h2, h3, h4, h5, hLen⟩
    obtain ⟨σL, hL, hFieldL⟩ := hSection (.ofString "log") hg (by decide)
    obtain ⟨σC, hC, hFieldC⟩ := hSection (.ofString "charsets") hg (by decide)
    refine ⟨g, hg, ?_⟩
    rw [hValidate hL hC, hFieldL (.ofString "level") (by decide),
      hFieldL (.ofString "target") (by decide), hFieldL (.ofString "filePath") (by decide),
      hFieldL (.ofString "pretty") (by decide), hFieldC (.ofString "default") (by decide)]
    simp only [if_pos hML, if_pos hMC]
    exact ⟨⟨h1, h2, h3, h4⟩, h5, hLen⟩

end Libraries

/-- A computation whose result reads as some value succeeded with that value. -/
theorem eq_ok_of_toOption {ε α : Type} {x : Except ε α} {a : α} (h : x.toOption = some a) :
    x = .ok a := by
  cases x <;> simp_all [Except.toOption]

/-- The bundled defaults with a user file that only lowers the level, loaded with the pinned
libraries, and the records they read. -/
theorem loadFrom_override_debug :
    let d : Graph × List (Text × Item) :=
      (⟨#[.list [] 0 [], .mapping [(.ofString "log", .ref 3), (.ofString "charsets", .ref 5)],
        .list [] 0 [],
        .mapping [(.ofString "level", .text (.ofString "info")),
          (.ofString "target", .text (.ofString "stdout")),
          (.ofString "filePath", .text (.ofString "backport-shims.log")),
          (.ofString "pretty", .bool true)],
        .list [] 0 [], .mapping [(.ofString "default", .text (.ofString "UTF-8"))]]⟩,
        [(.ofString "log", .ref 3), (.ofString "charsets", .ref 5)])
    let u : Graph × List (Text × Item) :=
      (⟨#[.list [] 0 [], .mapping [(.ofString "log", .ref 3)], .list [] 0 [],
        .mapping [(.ofString "level", .text (.ofString "debug"))]]⟩, [(.ofString "log", .ref 3)])
    loadWith .pinned bundledDefaults (some (.ofString "log:\n  level: debug\n")) =
        .ok ⟨⟨.debug, .stdout, .ofString "backport-shims.log", true⟩, ⟨.ofString "UTF-8"⟩⟩ ↔
      (∃ g, Libraries.pinned.merge [d, u] = .ok g) ∧
      Mergeable d u (.ofString "log") ∧ Mergeable d u (.ofString "charsets") ∧
      chosen d u (.ofString "log") (.ofString "level") = some (.text (.ofString "debug")) ∧
      chosen d u (.ofString "log") (.ofString "target") = some (.text (.ofString "stdout")) ∧
      chosen d u (.ofString "log") (.ofString "filePath") =
        some (.text (.ofString "backport-shims.log")) ∧
      chosen d u (.ofString "log") (.ofString "pretty") = some (.bool true) ∧
      chosen d u (.ofString "charsets") (.ofString "default") = some (.text (.ofString "UTF-8")) ∧
      1 ≤ (Text.ofString "UTF-8").length :=
  loadWith_override .pinned Libraries.pinned_mergesSectionwise Libraries.pinned_validatesShown
    (eq_ok_of_toOption (by decide +kernel)) (eq_ok_of_toOption (by decide +kernel))
    ⟨⟨fun i => 6 - i, Graph.forall_node? (by decide)⟩,
      ⟨Graph.forall_node? (by decide), by decide, by decide⟩, Graph.forall_node? (by decide)⟩
    ⟨⟨fun i => 4 - i, Graph.forall_node? (by decide)⟩,
      ⟨Graph.forall_node? (by decide), by decide, by decide⟩, Graph.forall_node? (by decide)⟩ _

/-- **Three loads with the pinned libraries.** A mapping of the user's over a list of the
defaults is written into the list, which validation refuses; through an alias cycle of the
defaults the user's `log.me.level` reaches `log.level`; and a merge fails on a key outside the
schema when a list would take a length beyond the largest. -/
theorem loadFrom_override_limits :
    (loadFrom (.ofString "log: [1, 2]\ncharsets:\n  default: UTF-8\n")
        (some (.ofString "log: \x7blevel: info, target: stdout, filePath: a, pretty: true\x7d\n"))
      ).toOption = none ∧
    (loadFrom (.ofString ("log: &L\n  level: info\n  target: stdout\n  filePath: a\n" ++
          "  pretty: true\n  me: *L\ncharsets:\n  default: UTF-8\n"))
        (some (.ofString "log:\n  me:\n    level: debug\n"))).toOption.map (·.log.level) =
      some .debug ∧
    (loadFrom (.ofString ("log: \x7blevel: info, target: stdout, filePath: a, pretty: true\x7d\n" ++
          "charsets: \x7bdefault: UTF-8\x7d\nx: \x7blength: 10000000000\x7d\n"))
        (some (.ofString "x: [1]\n"))).toOption = none :=
  ⟨by decide +kernel, by decide +kernel, by decide +kernel⟩

end Config

end Transcode
