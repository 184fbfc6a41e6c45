import Transcode.Config.Load
import Transcode.Proofs.Config.Layer

/-!
# What validation reads of a merged configuration

The loader validates the merged graph unfolded three levels deep: the root as a record, each
section under it as an object, and each field of a section as a text or a boolean. This module
says what passes, first for any value (`Schema.logSection_eq_ok`), then in terms of the abstract
`Section` the merge leaves (`Graph.Shows`): a section passes the object check exactly when it is
an object section, and its fields are then read as that section's fields. A reference never
unfolds to a text or a boolean, so what validation takes for a field is exactly a text or a
boolean the section holds.

## Main results

* `Schema.logSection_eq_ok`, `Schema.charsetsSection_eq_ok`: when a section passes, field by
  field.
* `Config.parse_mapping_eq_ok`: a mapping passes when both its sections pass.
* `Graph.Shows.object_iff`: a section passes the object check exactly when it is an object.
* `Graph.Shows.read`: validation reads an object section's fields as the section has them.
* `Graph.parse_unfold_eq_ok`: the configuration validation takes from a merged graph.
-/

namespace Transcode

namespace Schema

variable {α : Type} {path : List Text} {x : Option Value}

/-- An enumeration takes a text and looks its option up by name. -/
theorem enumeration_eq_ok {all : List α} {name : α → String} {a : α} :
    enumeration all name path x = .ok a ↔
      ∃ t, x = some (.text t) ∧ all.find? (fun b => Text.ofString (name b) = t) = some a := by
  unfold enumeration
  split
  · rename_i t
    split
    · rename_i b hb
      simp [hb]
    · rename_i hb
      simp [hb]
  · rename_i hx
    simp only [reduceCtorEq, false_iff, not_exists, not_and]
    intro t ht
    exact absurd ht (hx t)

/-- An enumeration whose options have names of their own takes exactly the name of an option. -/
theorem enumeration_eq_ok_iff {all : List α} {name : α → String} {a : α} (ha : a ∈ all)
    (hNames : ∀ b ∈ all,
      all.find? (fun c => Text.ofString (name c) = Text.ofString (name b)) = some b) :
    enumeration all name path x = .ok a ↔ x = some (.text (.ofString (name a))) := by
  rw [enumeration_eq_ok]
  constructor
  · rintro ⟨t, rfl, hFind⟩
    have hName : Text.ofString (name a) = t := by simpa using List.find?_some hFind
    rw [hName]
  · rintro rfl
    exact ⟨_, rfl, hNames a ha⟩

theorem level_eq_ok {l : Level} :
    enumeration Level.all Level.name path x = .ok l ↔ x = some (.text (.ofString l.name)) :=
  enumeration_eq_ok_iff (by cases l <;> decide) (by decide)

theorem target_eq_ok {o : Target} :
    enumeration Target.all Target.name path x = .ok o ↔ x = some (.text (.ofString o.name)) :=
  enumeration_eq_ok_iff (by cases o <;> decide) (by decide)

theorem text_eq_ok {t : Text} : text path x = .ok t ↔ x = some (.text t) := by
  cases x with
  | none => simp [text]
  | some v => cases v <;> simp [text]

theorem boolean_eq_ok {b : Bool} : boolean path x = .ok b ↔ x = some (.bool b) := by
  cases x with
  | none => simp [boolean]
  | some v => cases v <;> simp [boolean]

theorem object_eq_ok {part : Value} : object path x = .ok part ↔ x = some part ∧ part.isRecord := by
  cases x with
  | none => simp [object]
  | some v =>
    by_cases hv : v.isRecord = true
    · simp only [object, hv, if_true, Except.ok.injEq, Option.some.injEq]
      constructor
      · rintro rfl
        exact ⟨rfl, hv⟩
      · rintro ⟨rfl, -⟩
        rfl
    · simp only [object, hv, Bool.false_eq_true, if_false, reduceCtorEq, Option.some.injEq,
        false_iff, not_and]
      rintro rfl
      exact hv

/-- **The `log` section passes** exactly when it is an object whose level and target name
options of the schema, whose file path is a text and whose `pretty` is a boolean. -/
theorem logSection_eq_ok {L : LogConfig} :
    logSection x = .ok L ↔ ∃ part, object [.ofString "log"] x = .ok part ∧
      part.property? (.ofString "level") = some (.text (.ofString L.level.name)) ∧
      part.property? (.ofString "target") = some (.text (.ofString L.target.name)) ∧
      part.property? (.ofString "filePath") = some (.text L.filePath) ∧
      part.property? (.ofString "pretty") = some (.bool L.pretty) := by
  unfold logSection
  dsimp only
  split
  · rename_i i hObj
    simp [hObj]
  · rename_i part hObj
    simp only [hObj, Except.ok.injEq, exists_eq_left']
    constructor
    · intro h
      split at h
      · rename_i l o f p h1 h2 h3 h4
        cases h
        exact ⟨level_eq_ok.mp h1, target_eq_ok.mp h2, text_eq_ok.mp h3, boolean_eq_ok.mp h4⟩
      · cases h
    · rintro ⟨h1, h2, h3, h4⟩
      rw [level_eq_ok.mpr h1, target_eq_ok.mpr h2, text_eq_ok.mpr h3, boolean_eq_ok.mpr h4]

/-- **The `charsets` section passes** exactly when it is an object whose default is a text of
at least one unit. -/
theorem charsetsSection_eq_ok {C : CharsetsConfig} :
    charsetsSection x = .ok C ↔ ∃ part, object [.ofString "charsets"] x = .ok part ∧
      part.property? (.ofString "default") = some (.text C.defaultName) ∧
      1 ≤ C.defaultName.length := by
  unfold charsetsSection
  dsimp only
  split
  · rename_i i hObj
    simp [hObj]
  · rename_i part hObj
    simp only [hObj, Except.ok.injEq, exists_eq_left']
    split
    · rename_i i hText
      simp only [reduceCtorEq, false_iff, not_and]
      intro hDefault
      rw [text_eq_ok.mpr hDefault] at hText
      cases hText
    · rename_i t hText
      rw [text_eq_ok.mp hText]
      cases C with
      | mk name =>
        by_cases hLen : t.length < 1
        · simp only [hLen, if_true, reduceCtorEq, false_iff, Option.some.injEq, Value.text.injEq,
            not_and]
          rintro rfl
          omega
        · simp only [hLen, if_false, Except.ok.injEq, CharsetsConfig.mk.injEq, Option.some.injEq,
            Value.text.injEq, iff_self_and]
          rintro rfl
          omega

end Schema

/-- A mapping passes validation exactly when both its sections do. -/
theorem Config.parse_mapping_eq_ok {M : List (Text × Value)} {C : Config} :
    Config.parse (.mapping M) = .ok C ↔
      Schema.logSection (Value.lookup M (.ofString "log")) = .ok C.log ∧
        Schema.charsetsSection (Value.lookup M (.ofString "charsets")) = .ok C.charsets := by
  unfold Config.parse
  have hRecord : Schema.object [] (some (.mapping M)) = .ok (.mapping M) :=
    Schema.object_eq_ok.mpr ⟨rfl, rfl⟩
  rw [hRecord]
  dsimp only [Value.property?]
  constructor
  · intro h
    split at h
    · rename_i l c hl hc
      cases h
      exact ⟨hl, hc⟩
    · cases h
  · rintro ⟨hl, hc⟩
    rw [hl, hc]

namespace Graph

/-- The field validation reads of a section: an object section's own, none of any other. -/
def Section.field : Section → Text → Option Item
  | .object F, f => lookup F f
  | _, _ => none

theorem Section.eq_object_of_field {σ : Section} {f : Text} {v : Item} (h : σ.field f = some v) :
    ∃ F, σ = .object F := by
  cases σ with
  | object F => exact ⟨F, rfl⟩
  | blank => cases h
  | closed => cases h

/-! ## Unfolding -/

section Unfold

variable {g : Graph} {d c : Nat}

theorem lookup_map_unfold {F : List (Text × Item)} {key : Text} :
    Value.lookup (F.map fun kv => (kv.1, g.unfold d kv.2)) key = (lookup F key).map (g.unfold d) := by
  simp [Value.lookup, Graph.lookup, List.find?_map, Function.comp_def]

theorem unfold_mapping {F : List (Text × Item)} (h : g.node? c = some (.mapping F)) :
    g.unfold (d + 1) (.ref c) = .mapping (F.map fun kv => (kv.1, g.unfold d kv.2)) := by
  simp [Graph.unfold, h]

theorem unfold_bytes_nil {data : List UInt8} (h : g.node? c = some (.bytes data [])) :
    g.unfold d (.ref c) = .binary data := by
  unfold Graph.unfold
  simp [h]

theorem unfold_bytes_cons {data : List UInt8} {kv : Text × Item} {F : List (Text × Item)}
    (h : g.node? c = some (.bytes data (kv :: F))) :
    g.unfold (d + 1) (.ref c) = .mapping ((kv :: F).map fun kv => (kv.1, g.unfold d kv.2)) := by
  rw [Graph.unfold.eq_def]
  simp only [h]

theorem unfold_date {ms : Int} {F : List (Text × Item)} (h : g.node? c = some (.date ms F)) :
    g.unfold d (.ref c) = .date ms := by
  unfold Graph.unfold
  simp [h]

theorem unfold_list {items : List Item} {holes : Nat} {F : List (Text × Item)}
    (h : g.node? c = some (.list items holes F)) : ∃ vs, g.unfold d (.ref c) = .list vs := by
  unfold Graph.unfold
  cases d <;> simp [h]

/-- A reference unfolds to null or to an object. -/
theorem unfold_ref_cases : g.unfold d (.ref c) = .null ∨ (g.unfold d (.ref c)).isObject := by
  unfold Graph.unfold
  split <;> simp [Value.isObject]

/-- Validation reads a text or a boolean field as the item it unfolds from. -/
theorem map_unfold_eq_some {o : Option Item} {v : Item} (hv : v.isScalar) (hNull : v ≠ .null) :
    o.map (g.unfold d) = some (g.unfold d v) ↔ o = some v := by
  cases o with
  | none => simp
  | some w =>
    simp only [Option.map_some, Option.some.injEq]
    constructor
    · intro h
      cases w with
      | ref c' =>
        rcases unfold_ref_cases (g := g) (d := d) (c := c') with hRef | hRef <;>
          rw [h] at hRef <;> cases v <;> simp_all [Graph.unfold, Value.isObject, Item.isScalar]
      | _ => cases v <;> simp_all [Graph.unfold, Item.isScalar]
    · rintro rfl
      rfl

/-- A node with a record unfolds, one level down, to a value validation takes for an object. -/
theorem isRecord_unfold {node : Node} {F : List (Text × Item)} (hNode : g.node? c = some node)
    (hRec : node.record? = some F) : (g.unfold (d + 1) (.ref c)).isRecord := by
  cases node with
  | mapping F' =>
    rw [unfold_mapping hNode]
    rfl
  | bytes data F' =>
    cases F' with
    | nil =>
      rw [unfold_bytes_nil hNode]
      rfl
    | cons kv F' =>
      rw [unfold_bytes_cons hNode]
      rfl
  | list items holes F' => simp [Node.record?] at hRec
  | date ms F' => simp [Node.record?] at hRec

/-- A list or an instant unfolds to a value validation refuses as an object. -/
theorem not_isRecord_unfold {node : Node} (hNode : g.node? c = some node)
    (hKind : node.kind = .list ∨ node.kind = .date) : (g.unfold d (.ref c)).isRecord = false := by
  cases node with
  | list items holes F' =>
    obtain ⟨vs, hList⟩ := unfold_list (d := d) hNode
    rw [hList]
    rfl
  | date ms F' =>
    rw [unfold_date hNode]
    rfl
  | mapping F' => simp [Node.kind] at hKind
  | bytes data F' => simp [Node.kind] at hKind

/-- A scalar unfolds to itself, which is no object. -/
theorem not_isRecord_unfold_scalar {v : Item} (hv : ∀ c, v ≠ .ref c) :
    (g.unfold d v).isRecord = false := by
  cases v with
  | ref c' => exact absurd rfl (hv c')
  | _ => simp [Graph.unfold, Value.isRecord, Value.isObject]

/-- Validation reads a storable field of a node with a record as the record has it. -/
theorem property_unfold {node : Node} {F : List (Text × Item)} (hNode : g.node? c = some node)
    (hRec : node.record? = some F) {f : Text} (hf : Storable f) :
    (g.unfold (d + 1) (.ref c)).property? f = (lookup F f).map (g.unfold d) := by
  cases node with
  | mapping F' =>
    obtain rfl : F' = F := by simpa [Node.record?] using hRec
    rw [unfold_mapping hNode]
    exact lookup_map_unfold
  | bytes data F' =>
    obtain rfl : F' = F := by simpa [Node.record?] using hRec
    cases F' with
    | nil =>
      -- binary data without fields: its only properties are its length and its elements
      have hLength : f ≠ Value.lengthKey := fun hEq => hf.2 (by rw [hEq]; decide)
      rw [unfold_bytes_nil hNode]
      simp [Value.property?, Value.elementOrLength, hLength, hf.1, lookup]
    | cons kv F' =>
      rw [unfold_bytes_cons hNode]
      exact lookup_map_unfold
  | list items holes F' => simp [Node.record?] at hRec
  | date ms F' => simp [Node.record?] at hRec

end Unfold

/-! ## Sections -/

/-- Field lists that agree hold the same scalars. -/
theorem Agrees.lookup_eq_some {F' F : List (Text × Item)} (hA : Agrees F' F) {f : Text}
    (hf : Storable f) (hp : f ≠ protoKey) {v : Item} (hv : v.isScalar) :
    lookup F' f = some v ↔ lookup F f = some v := by
  -- a scalar is its own shape, and only a reference has the shape of a reference
  have hShape : ∀ o : Option Item, o = some v ↔ o.map Item.shape = some v := by
    intro o
    cases o with
    | none => simp
    | some w =>
      cases w <;> cases v <;> simp_all [Item.shape, Item.isScalar]
  rw [hShape, hA f hf hp, ← hShape]

section Sections

variable {g : Graph} {s : Text} {σ : Section} {R : List (Text × Item)}

/-- The root of a graph that shows a section is a mapping. -/
theorem Shows.root (hShows : Shows g s σ) : ∃ R, g.node? 0 = some (.mapping R) :=
  let ⟨_, R, hRoot, _⟩ := hShows.base
  ⟨R, hRoot⟩

/-- **A section passes the object check exactly when it is an object section.** -/
theorem Shows.object_iff (hShows : Shows g s σ) (hRoot : g.node? 0 = some (.mapping R))
    (path : List Text) :
    (∃ part, Schema.object path ((lookup R s).map (g.unfold 2)) = .ok part) ↔
      ∃ F, σ = .object F := by
  simp only [Schema.object_eq_ok]
  cases σ with
  | blank =>
    obtain ⟨-, R', hR', hNoRef⟩ := hShows
    obtain rfl : R' = R := by simpa [hRoot] using hR'.symm
    simp only [reduceCtorEq, exists_false, iff_false, not_exists, not_and]
    intro part hPart hRec
    cases hLook : lookup R' s with
    | none =>
      rw [hLook] at hPart
      cases hPart
    | some v =>
      rw [hLook, Option.map_some, Option.some.injEq] at hPart
      have hv : ∀ c, v ≠ .ref c := fun c hc => hNoRef c (hc ▸ hLook)
      rw [← hPart, not_isRecord_unfold_scalar hv] at hRec
      cases hRec
  | closed =>
    obtain ⟨-, R', c, node, hR', hLook, hNode, hKind⟩ := hShows
    obtain rfl : R' = R := by simpa [hRoot] using hR'.symm
    simp only [reduceCtorEq, exists_false, iff_false, not_exists, not_and]
    intro part hPart hRec
    rw [hLook, Option.map_some, Option.some.injEq] at hPart
    rw [← hPart, not_isRecord_unfold hNode hKind] at hRec
    cases hRec
  | object F =>
    obtain ⟨R', c, node, F', hR', hLook, hNode, hRec, -⟩ := hShows
    obtain rfl : R' = R := by simpa [hRoot] using hR'.symm
    refine iff_of_true ?_ ⟨F, rfl⟩
    exact ⟨_, by rw [hLook]; rfl, isRecord_unfold hNode hRec⟩

/-- **Validation reads an object section's fields as the section has them**: a scalar other
than null, under a storable key other than `__proto__`. -/
theorem Shows.read {F : List (Text × Item)} (hShows : Shows g s (.object F))
    (hRoot : g.node? 0 = some (.mapping R)) {path : List Text} {part : Value}
    (hObj : Schema.object path ((lookup R s).map (g.unfold 2)) = .ok part) {f : Text}
    (hf : Storable f) (hp : f ≠ protoKey) (v : Item) (hv : v.isScalar) (hNull : v ≠ .null) :
    part.property? f = some (g.unfold 1 v) ↔ lookup F f = some v := by
  obtain ⟨R', c, node, F', hR', hLook, hNode, hRec, hAgree, -⟩ := hShows
  obtain rfl : R' = R := by simpa [hRoot] using hR'.symm
  obtain ⟨hPart, -⟩ := Schema.object_eq_ok.mp hObj
  rw [hLook, Option.map_some, Option.some.injEq] at hPart
  rw [← hPart, property_unfold hNode hRec hf, map_unfold_eq_some hv hNull]
  exact hAgree.lookup_eq_some hf hp hv

/-- **The `log` section of a merged graph passes** exactly when it is an object section
whose fields are those of the configuration. -/
theorem Shows.logSection_eq_ok (hShows : Shows g (.ofString "log") σ)
    (hRoot : g.node? 0 = some (.mapping R)) {L : LogConfig} :
    Schema.logSection ((lookup R (.ofString "log")).map (g.unfold 2)) = .ok L ↔
      σ.field (.ofString "level") = some (.text (.ofString L.level.name)) ∧
      σ.field (.ofString "target") = some (.text (.ofString L.target.name)) ∧
      σ.field (.ofString "filePath") = some (.text L.filePath) ∧
      σ.field (.ofString "pretty") = some (.bool L.pretty) := by
  rw [Schema.logSection_eq_ok]
  constructor
  · rintro ⟨part, hObj, h1, h2, h3, h4⟩
    obtain ⟨F, rfl⟩ := (hShows.object_iff hRoot _).mp ⟨part, hObj⟩
    exact ⟨(hShows.read hRoot hObj (by decide) (by decide) (.text _) rfl (by simp)).mp h1,
      (hShows.read hRoot hObj (by decide) (by decide) (.text _) rfl (by simp)).mp h2,
      (hShows.read hRoot hObj (by decide) (by decide) (.text _) rfl (by simp)).mp h3,
      (hShows.read hRoot hObj (by decide) (by decide) (.bool _) rfl (by simp)).mp h4⟩
  · rintro ⟨h1, h2, h3, h4⟩
    obtain ⟨F, rfl⟩ := Section.eq_object_of_field h1
    obtain ⟨part, hObj⟩ := (hShows.object_iff hRoot _).mpr ⟨F, rfl⟩
    exact ⟨part, hObj,
      (hShows.read hRoot hObj (by decide) (by decide) (.text _) rfl (by simp)).mpr h1,
      (hShows.read hRoot hObj (by decide) (by decide) (.text _) rfl (by simp)).mpr h2,
      (hShows.read hRoot hObj (by decide) (by decide) (.text _) rfl (by simp)).mpr h3,
      (hShows.read hRoot hObj (by decide) (by decide) (.bool _) rfl (by simp)).mpr h4⟩

/-- **The `charsets` section of a merged graph passes** exactly when it is an object section
whose default is the configuration's, a text of at least one unit. -/
theorem Shows.charsetsSection_eq_ok (hShows : Shows g (.ofString "charsets") σ)
    (hRoot : g.node? 0 = some (.mapping R)) {C : CharsetsConfig} :
    Schema.charsetsSection ((lookup R (.ofString "charsets")).map (g.unfold 2)) = .ok C ↔
      σ.field (.ofString "default") = some (.text C.defaultName) ∧ 1 ≤ C.defaultName.length := by
  rw [Schema.charsetsSection_eq_ok]
  constructor
  · rintro ⟨part, hObj, hDefault, hLen⟩
    obtain ⟨F, rfl⟩ := (hShows.object_iff hRoot _).mp ⟨part, hObj⟩
    exact ⟨(hShows.read hRoot hObj (by decide) (by decide) (.text _) rfl (by simp)).mp hDefault,
      hLen⟩
  · rintro ⟨hDefault, hLen⟩
    obtain ⟨F, rfl⟩ := Section.eq_object_of_field hDefault
    obtain ⟨part, hObj⟩ := (hShows.object_iff hRoot _).mpr ⟨F, rfl⟩
    exact ⟨part, hObj,
      (hShows.read hRoot hObj (by decide) (by decide) (.text _) rfl (by simp)).mpr hDefault, hLen⟩

/-- **The configuration validation takes from a merged graph**, in terms of the sections the
graph shows. -/
theorem parse_unfold_eq_ok {σL σC : Section} (hLog : Shows g (.ofString "log") σL)
    (hCharsets : Shows g (.ofString "charsets") σC) {C : Config} :
    Config.parse (g.unfold 3 (.ref 0)) = .ok C ↔
      (σL.field (.ofString "level") = some (.text (.ofString C.log.level.name)) ∧
        σL.field (.ofString "target") = some (.text (.ofString C.log.target.name)) ∧
        σL.field (.ofString "filePath") = some (.text C.log.filePath) ∧
        σL.field (.ofString "pretty") = some (.bool C.log.pretty)) ∧
      σC.field (.ofString "default") = some (.text C.charsets.defaultName) ∧
        1 ≤ C.charsets.defaultName.length := by
  obtain ⟨R, hRoot⟩ := hLog.root
  rw [unfold_mapping hRoot, Config.parse_mapping_eq_ok, lookup_map_unfold, lookup_map_unfold,
    hLog.logSection_eq_ok hRoot, hCharsets.charsetsSection_eq_ok hRoot]

end Sections

end Graph

end Transcode
