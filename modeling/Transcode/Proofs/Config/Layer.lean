import Transcode.Proofs.Config.Frame

/-!
# Deep merge: what a layer does to a section

Validation reads a section of the merged configuration through the root's key for it. Merging
a layer changes that key only when the layer's record has it, and what it then makes of the
section depends only on the kind of the layer's value and on how the target held the section
before (`Section.Step`): a scalar or an instant replaces it, a list ends as a list, binary data
as a list or as binary data without fields, and a mapping goes into whatever is in place. A
mapping merged into a list or an instant leaves a list or an instant, which validation
refuses; merged into an object, it sets the keys it has and keeps the others.

`Shows g s σ` ties the target to the abstract `Section`; an object section's node is
protected (`Apart`), so merging the layer's other keys leaves it alone.

## Main results

* `mergeEntry_root_frame`: merging another key at the root keeps section `s`.
* `Shows.step`: merging key `s` at the root is a `Section.Step`.
* `mergeLayer_section`: a layer whose record holds each key once, with no cycle and no
  reference to a node it does not have, changes each section by at most one step.
-/

namespace Transcode

namespace Graph

/-- Two field lists agree on every storable key but `__proto__`, up to which node a reference
names. -/
def Agrees (F G : List (Text × Item)) : Prop :=
  ∀ f, Storable f → f ≠ protoKey → (lookup F f).map Item.shape = (lookup G f).map Item.shape

/-- How the merged graph holds a section, as far as validation and a later layer can tell. -/
inductive Section where
  /-- Nothing, or a scalar: a later mapping is merged into a new one. -/
  | blank
  /-- A list or an instant: a later mapping is merged into it, and it stays no object. -/
  | closed
  /-- A mapping or binary data with these named fields, up to which node a reference names. -/
  | object (fields : List (Text × Item))

/-- The root of `g` is a mapping, and it holds section `s` as `σ`. The node of an object
section is protected: only the root refers to it, under `s`. -/
def Shows (g : Graph) (s : Text) : Section → Prop
  | .blank => Apart (fun _ => False) g ∧
      ∃ R, g.node? 0 = some (.mapping R) ∧ ∀ c, lookup R s ≠ some (.ref c)
  | .closed => Apart (fun _ => False) g ∧
      ∃ R c node, g.node? 0 = some (.mapping R) ∧ lookup R s = some (.ref c) ∧
        g.node? c = some node ∧ (node.kind = .list ∨ node.kind = .date)
  | .object F =>
      ∃ R c node F', g.node? 0 = some (.mapping R) ∧ lookup R s = some (.ref c) ∧
        g.node? c = some node ∧ node.record? = some F' ∧ Agrees F' F ∧ Apart (· = c) g ∧
        ∀ k, (k, .ref c) ∈ R → k = s

/-! ## The root -/

/-- The root stores an item as a field of its mapping. -/
theorem assign_root {g g' : Graph} {R : List (Text × Item)} {k : Text} {v : Item}
    (hRoot : g.node? 0 = some (.mapping R)) (h : assign g 0 k v = .ok g') :
    g'.node? 0 = some (.mapping (setField R k v)) := by
  simp only [assign, hRoot, Except.ok.injEq] at h
  rw [← h, node?_update_self, hRoot]
  rfl

/-- Storing an item at the root under key `k` keeps every other key. -/
private theorem root_after_assign {P : Nat → Prop} {g g' : Graph} {R : List (Text × Item)}
    {k s : Text} {v : Item} (hRoot : g.node? 0 = some (.mapping R)) (hk : k ≠ s)
    (hOnly : ∀ k' c, P c → (k', .ref c) ∈ R → k' = s) (hv : ∀ c ∈ v.refs, ¬ P c)
    (h : assign g 0 k v = .ok g') :
    ∃ R', g'.node? 0 = some (.mapping R') ∧ lookup R' s = lookup R s ∧
      ∀ k' c, P c → (k', .ref c) ∈ R' → k' = s := by
  refine ⟨_, assign_root hRoot h, lookup_setField_ne (Ne.symm hk), fun k' c hP hMem => ?_⟩
  rcases mem_setField hMem with hMem | hEq
  · exact hOnly k' c hP hMem
  · cases hEq
    exact absurd hP (hv c (by simp))

/-- With an empty stack, a node the layer already placed is one of its shared instants. -/
theorem lookup_shared_of_nil {shared : List (Nat × Nat)} {c t' : Nat}
    (h : ([] : List (Nat × Nat)).lookup c = some t' ∨ shared.lookup c = some t') :
    shared.lookup c = some t' ∧ (c, t') ∈ shared := by
  rcases h with h | h
  · cases h
  · obtain ⟨l₁, l₂, hEq, -⟩ := List.lookup_eq_some_iff.mp h
    exact ⟨h, by rw [hEq]; simp⟩

/-- What the root holds under a key it holds no protected node under is free. -/
theorem Apart.free_itemAt {P : Nat → Prop} {g : Graph} {R : List (Text × Item)} {k : Text}
    (hA : Apart P g) (hRoot : g.node? 0 = some (.mapping R))
    (hNotP : ∀ c, (k, .ref c) ∈ R → ¬ P c) (e : Nat) (hIn : itemAt? g 0 k = some (.ref e)) :
    Free P g e := by
  have hMem : (k, Item.ref e) ∈ R := by
    simp only [itemAt?, hRoot] at hIn
    exact mem_of_lookup hIn
  have hHolds : g.Holds 0 e := holds_of_mem_mapping hRoot hMem
  exact ⟨fun he => hA.root_free 0 (he ▸ hHolds), hNotP e hMem, hA.closed 0 e hHolds⟩

section Root

variable {src : Graph} {shared : List (Nat × Nat)} {rank : Nat → Nat}

/-- **Merging another key at the root.** Every protected node and the root's value for `s`
stay, the kinds of all nodes stay, and `Apart` holds on. -/
theorem mergeEntry_root_frame {P : Nat → Prop} (hRank : Ranked src rank) {fuel : Nat}
    {g g' : Graph} {R : List (Text × Item)} {k s : Text} {v : Item}
    (h : mergeEntry src shared fuel [] g 0 k v = .ok g') (hk : k ≠ s) (hA : Apart P g)
    (hP0 : ∀ c, P c → c ≠ 0) (hRoot : g.node? 0 = some (.mapping R))
    (hOnly : ∀ k' c, P c → (k', .ref c) ∈ R → k' = s) (hShared : ∀ p ∈ shared, Free P g p.2) :
    Apart P g' ∧ KindsKept g g' ∧ (∀ c, P c → g'.node? c = g.node? c) ∧
      ∃ R', g'.node? 0 = some (.mapping R') ∧ lookup R' s = lookup R s ∧
        ∀ k' c, P c → (k', .ref c) ∈ R' → k' = s := by
  -- storing a free item at the root
  have hStore : ∀ {g1 : Graph} {w : Item}, Apart P g1 → KindsKept g g1 →
      g1.node? 0 = some (.mapping R) → (∀ c, P c → g1.node? c = g.node? c) →
      (∀ c ∈ w.refs, Free P g1 c) → assign g1 0 k w = .ok g' →
      Apart P g' ∧ KindsKept g g' ∧ (∀ c, P c → g'.node? c = g.node? c) ∧
        ∃ R', g'.node? 0 = some (.mapping R') ∧ lookup R' s = lookup R s ∧
          ∀ k' c, P c → (k', .ref c) ∈ R' → k' = s := by
    intro g1 w hA1 hKinds1 hRoot1 hKeep1 hw hAssign
    refine ⟨hA1.after_assign hAssign fun c hc => ⟨(hw c hc).1, (hw c hc).2.2, fun _ => rfl⟩,
      hKinds1.trans (kindsKept_assign hAssign), fun c hP => ?_,
      root_after_assign hRoot1 hk hOnly (fun c hc => (hw c hc).2.1) hAssign⟩
    rw [node?_assign_ne hAssign (hP0 c hP)]
    exact hKeep1 c hP
  -- what the root holds under `k` is free, since the root holds protected nodes under `s` only
  have hIn : ∀ e, itemAt? g 0 k = some (.ref e) → Free P g e :=
    hA.free_itemAt hRoot fun c hMem hP => hk (hOnly k c hP hMem)
  rcases mergeEntry_cases h with ⟨hEq, -⟩ | ⟨hScalar, hAssign⟩ | ⟨s', t', rfl, hLook, hAssign⟩ |
    ⟨s', node, g1, n, g2, rfl, -, -, hNode, hPl, hRec, hAssign⟩ |
    ⟨s', node, g1, node', rfl, -, -, -, hPl, hAssign⟩
  · rw [hEq]
    exact ⟨hA, KindsKept.refl g, fun _ _ => rfl, R, hRoot, rfl, hOnly⟩
  · exact hStore hA (KindsKept.refl g) hRoot (fun _ _ => rfl)
      (by simp [Item.refs_eq_nil_of_isScalar hScalar]) hAssign
  · have hFree := hShared (s', t') (lookup_shared_of_nil hLook).2
    exact hStore hA (KindsKept.refl g) hRoot (fun _ _ => rfl) (by simpa using hFree) hAssign
  · obtain ⟨hA1, hLe1, hKeep1, hInto, -⟩ := placement_apart hA hIn hPl
    have hn := hInto n rfl
    obtain ⟨hA2, hKeeps2⟩ := mergeFields_apart hRank _ _ g1 n _ g2 hRec hn.1 hA1
      (below_objectFields hRank hNode (fun p hp => by cases hp))
      (fun p hp => (hShared p hp).mono hLe1)
    have hKinds : KindsKept g g2 :=
      (kindsKept_placement hPl).trans (mergeFields_kinds _ _ g1 n _ g2 hRec)
    have hRoot2 : g2.node? 0 = some (.mapping R) := by
      rw [hKeeps2.2.1, hKeep1 0 hA.root_lt, hRoot]
    have hKeep2 : ∀ c, P c → g2.node? c = g.node? c := by
      intro c hP
      rw [hKeeps2.2.2 c hP fun hcn => hn.2.1 (hcn ▸ hP), hKeep1 c (hA.protected_lt c hP)]
    exact hStore hA2 hKinds hRoot2 hKeep2 (by simpa using hn.mono hKeeps2.1) hAssign
  · obtain ⟨hA1, hLe1, hKeep1, -, hCopy⟩ := placement_apart hA hIn hPl
    have hRefs := hCopy node' rfl
    have hA2 := hA1.after_alloc (n := node') (by simp [hRefs])
    have hKinds : KindsKept g (g1.alloc node').1 :=
      (kindsKept_placement hPl).trans (kindsKept_alloc g1 node')
    have hRoot2 : (g1.alloc node').1.node? 0 = some (.mapping R) := by
      rw [node?_alloc_ne (Nat.ne_of_lt hA1.root_lt), hKeep1 0 hA.root_lt, hRoot]
    have hKeep2 : ∀ c, P c → (g1.alloc node').1.node? c = g.node? c := by
      intro c hP
      rw [node?_alloc_ne (Nat.ne_of_lt (hA1.protected_lt c hP)), hKeep1 c (hA.protected_lt c hP)]
    have hFresh : Free P (g1.alloc node').1 g1.nodes.size := hA1.free_size (by simp)
    exact hStore hA2 hKinds hRoot2 hKeep2 (by simpa using hFresh) hAssign

end Root

/-! ## Sections -/

/-- What merging item `v` of layer `src` under a section's key can make of the section `σ`,
by the kind of `v`. -/
inductive Section.Step (src : Graph) : Section → Item → Section → Prop
  /-- A scalar replaces the section. -/
  | scalar {σ : Section} {v : Item} : v.isScalar = true → Step src σ v .blank
  /-- An instant of the layer replaces it by that instant. -/
  | instant {σ : Section} {c : Nat} {ms : Int} {F : List (Text × Item)} :
      src.node? c = some (.date ms F) → Step src σ (.ref c) .closed
  /-- A list goes into a list. -/
  | list {σ : Section} {c : Nat} {items : List Item} {holes : Nat} {F : List (Text × Item)} :
      src.node? c = some (.list items holes F) → Step src σ (.ref c) .closed
  /-- Binary data is copied without its named fields, -/
  | bytesCopy {σ : Section} {c : Nat} {data : List UInt8} {F : List (Text × Item)} :
      src.node? c = some (.bytes data F) → Step src σ (.ref c) (.object [])
  /-- or goes into a list when something is in place. -/
  | bytesList {σ : Section} {c : Nat} {data : List UInt8} {F : List (Text × Item)} :
      σ ≠ .blank → src.node? c = some (.bytes data F) → Step src σ (.ref c) .closed
  /-- A mapping goes into a new mapping, -/
  | mappingNew {c : Nat} {F : List (Text × Item)} :
      src.node? c = some (.mapping F) →
        Step src .blank (.ref c) (.object (enumerationOrder F).reverse)
  /-- into a list or an instant, which stays one, -/
  | mappingClosed {c : Nat} {F : List (Text × Item)} :
      src.node? c = some (.mapping F) → Step src .closed (.ref c) .closed
  /-- or into an object, setting the keys it has and keeping the others. -/
  | mappingInto {c : Nat} {F G : List (Text × Item)} :
      src.node? c = some (.mapping F) →
        Step src (.object G) (.ref c) (.object ((enumerationOrder F).reverse ++ G))

theorem Apart.unprotect {P : Nat → Prop} {g : Graph} (hA : Apart P g) :
    Apart (fun _ => False) g :=
  ⟨hA.root_lt, hA.closed, hA.root_free, fun _ h => h.elim, fun _ h => h.elim⟩

/-- A node just added can be protected. -/
theorem Apart.protect_alloc {g : Graph} {n : Node} (hA : Apart (fun _ => False) g)
    (hn : n.refs = []) : Apart (· = g.nodes.size) (g.alloc n).1 := by
  have hA1 := hA.after_alloc (n := n) (by simp [hn])
  refine ⟨hA1.root_lt, hA1.closed, hA1.root_free, fun c hc m hHolds => ?_,
    fun c hc => by rw [hc]; simp⟩
  rw [hc] at hHolds
  exact absurd hHolds (hA.not_holds_alloc (by simp [hn]) m)

/-- The layer's instants stand for instants of the target. -/
def Dated (g : Graph) (shared : List (Nat × Nat)) : Prop :=
  ∀ p ∈ shared, (g.node? p.2).map Node.kind = some .date

theorem Dated.mono {g g' : Graph} {shared : List (Nat × Nat)} (h : Dated g shared)
    (hKinds : KindsKept g g') : Dated g' shared := by
  intro p hp
  have hDate := h p hp
  cases hNode : g.node? p.2 with
  | none => rw [hNode] at hDate; cases hDate
  | some node =>
    rw [hKinds.2 p.2 (lt_size_of_node? hNode), hDate]

/-- Instants the target holds for the layer's are free of any node that is no instant. -/
theorem Dated.free {P : Nat → Prop} {g : Graph} {shared : List (Nat × Nat)}
    {R : List (Text × Item)} (h : Dated g shared) (hRoot : g.node? 0 = some (.mapping R))
    (hP : ∀ c, P c → (g.node? c).map Node.kind ≠ some .date) : ∀ p ∈ shared, Free P g p.2 := by
  intro p hp
  have hDate := h p hp
  refine ⟨fun h0 => ?_, fun hPt => hP _ hPt hDate, ?_⟩
  · rw [h0, hRoot] at hDate
    cases hDate
  · cases hNode : g.node? p.2 with
    | none =>
      rw [hNode] at hDate
      cases hDate
    | some node => exact lt_size_of_node? hNode

section Frame

variable {src : Graph} {shared : List (Nat × Nat)} {rank : Nat → Nat}

/-- **Merging another key keeps a section.** -/
theorem Shows.frame (hRank : Ranked src rank) {fuel : Nat} {g g' : Graph} {k s : Text}
    {v : Item} {σ : Section} (hShows : Shows g s σ)
    (h : mergeEntry src shared fuel [] g 0 k v = .ok g') (hk : k ≠ s)
    (hDated : Dated g shared) : Shows g' s σ ∧ KindsKept g g' := by
  cases σ with
  | blank =>
    obtain ⟨hA, R, hRoot, hNone⟩ := hShows
    have hFree : ∀ p ∈ shared, Free (fun _ => False) g p.2 := hDated.free hRoot fun _ h => h.elim
    obtain ⟨hA', hKinds, -, R', hRoot', hLook, -⟩ :=
      mergeEntry_root_frame hRank h hk hA (fun _ h => h.elim) hRoot (fun _ _ h => h.elim) hFree
    exact ⟨⟨hA', R', hRoot', by rw [hLook]; exact hNone⟩, hKinds⟩
  | closed =>
    obtain ⟨hA, R, c, node, hRoot, hLook, hNode, hKind⟩ := hShows
    have hFree : ∀ p ∈ shared, Free (fun _ => False) g p.2 := hDated.free hRoot fun _ h => h.elim
    obtain ⟨hA', hKinds, -, R', hRoot', hLook', -⟩ :=
      mergeEntry_root_frame hRank h hk hA (fun _ h => h.elim) hRoot (fun _ _ h => h.elim) hFree
    have hKindC := hKinds.2 c (lt_size_of_node? hNode)
    rw [hNode] at hKindC
    cases hNode' : g'.node? c with
    | none => rw [hNode'] at hKindC; cases hKindC
    | some node' =>
      rw [hNode'] at hKindC
      have hSame : node'.kind = node.kind := Option.some.inj hKindC
      exact ⟨⟨hA', R', c, node', hRoot', hLook'.trans hLook, hNode', hSame ▸ hKind⟩, hKinds⟩
  | object F =>
    obtain ⟨R, c, node, F', hRoot, hLook, hNode, hRec, hAgree, hA, hOnly⟩ := hShows
    have hHolds : g.Holds 0 c := holds_of_mem_mapping hRoot (mem_of_lookup hLook)
    have hc0 : c ≠ 0 := fun hc => hA.root_free 0 (hc ▸ hHolds)
    have hNotDate : ∀ c', c' = c → (g.node? c').map Node.kind ≠ some .date := by
      intro c' hc' hDate
      rw [hc', hNode] at hDate
      cases node <;> simp [Node.record?, Node.kind] at hRec hDate
    have hFree : ∀ p ∈ shared, Free (· = c) g p.2 := hDated.free hRoot hNotDate
    obtain ⟨hA', hKinds, hKeep, R', hRoot', hLook', hOnly'⟩ :=
      mergeEntry_root_frame hRank h hk hA (fun c' hc' => hc' ▸ hc0) hRoot
        (fun k' c' hc' hMem => hOnly k' (hc' ▸ hMem)) hFree
    refine ⟨⟨R', c, node, F', hRoot', hLook'.trans hLook, (hKeep c rfl).trans hNode, hRec, hAgree,
      hA', fun k' hMem => hOnly' k' c rfl hMem⟩, hKinds⟩

end Frame

/-! ## Merging a section's own key -/

section Step

variable {src : Graph} {shared : List (Nat × Nat)} {rank : Nat → Nat}

/-- Storing a reference to a list or an instant under `s` at the root closes the section. -/
private theorem shows_closed_of_assign {g g' : Graph} {R : List (Text × Item)} {s : Text}
    {n : Nat} {node : Node} (hA : Apart (fun _ => False) g) (hRoot : g.node? 0 = some (.mapping R))
    (hNode : g.node? n = some node) (hKind : node.kind = .list ∨ node.kind = .date)
    (h : assign g 0 s (.ref n) = .ok g') : Shows g' s .closed := by
  have hn0 : n ≠ 0 := by
    intro hn
    rw [hn, hRoot] at hNode
    cases hNode
    rcases hKind with hKind | hKind <;> cases hKind
  have hLt := lt_size_of_node? hNode
  refine ⟨hA.after_assign h (by simpa using ⟨hn0, hLt⟩), _, n, node, assign_root hRoot h,
    lookup_setField_self, ?_, hKind⟩
  rw [node?_assign_ne h hn0]
  exact hNode

/-- Storing a reference to a protected object under `s` at the root makes it the section. -/
private theorem shows_object_of_assign {g g' : Graph} {R : List (Text × Item)} {s : Text}
    {n : Nat} {node : Node} {F F' : List (Text × Item)} (hA : Apart (· = n) g) (hn0 : n ≠ 0)
    (hRoot : g.node? 0 = some (.mapping R)) (hOnly : ∀ k, (k, .ref n) ∈ R → k = s)
    (hNode : g.node? n = some node) (hRec : node.record? = some F') (hAgree : Agrees F' F)
    (h : assign g 0 s (.ref n) = .ok g') : Shows g' s (.object F) := by
  have hLt := lt_size_of_node? hNode
  refine ⟨_, n, node, F', assign_root hRoot h, lookup_setField_self, ?_, hRec, hAgree,
    hA.after_assign h (by simpa using ⟨hn0, hLt⟩), fun k hMem => ?_⟩
  · rw [node?_assign_ne h hn0]
    exact hNode
  · rcases mem_setField hMem with hMem | hEq
    · exact hOnly k hMem
    · exact (Prod.mk.inj hEq).1

/-- What a mapping merged into the fields `F'` of a protected node sets. -/
private theorem agrees_merged {F F' F'' G : List (Text × Item)}
    (hMerged : ∀ f, Storable f → f ≠ protoKey →
      (lookup F'' f).map Item.shape = ((lookup F.reverse f).or (lookup F' f)).map Item.shape)
    (hAgree : Agrees F' G) : Agrees F'' (F.reverse ++ G) := by
  intro f hf hp
  rw [hMerged f hf hp, lookup_append]
  exact Item.shape_or_congr _ (hAgree f hf hp)

/-- Every section gives the root's fields and `Apart` without protection, and a blank one no
reference under its key. -/
theorem Shows.base {g : Graph} {s : Text} {σ : Section} (hShows : Shows g s σ) :
    Apart (fun _ => False) g ∧ ∃ R, g.node? 0 = some (.mapping R) ∧
      (σ = .blank → ∀ c, lookup R s ≠ some (.ref c)) := by
  cases σ with
  | blank =>
    obtain ⟨hA, R, hRoot, hNone⟩ := hShows
    exact ⟨hA, R, hRoot, fun _ => hNone⟩
  | closed =>
    obtain ⟨hA, R, -, -, hRoot, -⟩ := hShows
    exact ⟨hA, R, hRoot, fun h => by cases h⟩
  | object F =>
    obtain ⟨R, c, node, F', hRoot, -, -, -, -, hA, -⟩ := hShows
    exact ⟨Apart.unprotect hA, R, hRoot, fun h => by cases h⟩

/-- The root refers to no node beyond the graph. -/
theorem Apart.root_not_mem {P : Nat → Prop} {g : Graph} {R : List (Text × Item)}
    (hA : Apart P g) (hRoot : g.node? 0 = some (.mapping R)) (k : Text) :
    (k, Item.ref g.nodes.size) ∉ R := by
  intro hMem
  exact Nat.lt_irrefl _ (hA.closed 0 _ (holds_of_mem_mapping hRoot hMem))

/-- An instant the target holds for one of the layer's closes the section. -/
private theorem step_shared {g g' : Graph} {s : Text} {σ : Section} {R : List (Text × Item)}
    {c t' : Nat} (hA : Apart (fun _ => False) g) (hRoot : g.node? 0 = some (.mapping R))
    (hDated : Dated g shared)
    (hInstant : ∀ c t', shared.lookup c = some t' → ∃ ms F, src.node? c = some (.date ms F))
    (hLook : ([] : List (Nat × Nat)).lookup c = some t' ∨ shared.lookup c = some t')
    (hAssign : assign g 0 s (.ref t') = .ok g') :
    ∃ σ', Section.Step src σ (.ref c) σ' ∧ Shows g' s σ' ∧ KindsKept g g' := by
  -- the stack is empty, so the instant is a shared one
  obtain ⟨hShared, hMem⟩ := lookup_shared_of_nil hLook
  obtain ⟨ms, F, hDate⟩ := hInstant c t' hShared
  have hDateT := hDated (c, t') hMem
  cases hNodeT : g.node? t' with
  | none =>
    rw [hNodeT] at hDateT
    cases hDateT
  | some nodeT =>
    rw [hNodeT] at hDateT
    exact ⟨.closed, .instant hDate, shows_closed_of_assign hA hRoot hNodeT
      (.inr (Option.some.inj hDateT)) hAssign, kindsKept_assign hAssign⟩

/-- Merging a mapping of the layer into a protected node, and storing the node under `s` at the
root, gives the object section of the mapping's fields over the node's. -/
private theorem shows_object_of_merge (hRank : Ranked src rank) {fuel : Nat} {g0 g2 g' : Graph}
    {s : Text} {R : List (Text × Item)} {c n : Nat} {F F0 G : List (Text × Item)} {node0 : Node}
    (hClosed : ∀ m node, src.node? m = some node → ∀ c ∈ node.refs, c < src.nodes.size)
    (hNode : src.node? c = some (.mapping F)) (hn0 : n ≠ 0) (hA0 : Apart (· = n) g0)
    (hNode0 : g0.node? n = some node0) (hRec0 : node0.record? = some F0) (hAgree0 : Agrees F0 G)
    (hFree0 : ∀ p ∈ shared, Free (· = n) g0 p.2)
    (hMerge : mergeFields src shared (fuel + 1) [(c, n)] g0 n (enumerationOrder F) = .ok g2)
    (hRoot2 : g2.node? 0 = some (.mapping R)) (hOnly : ∀ k, (k, .ref n) ∈ R → k = s)
    (hAssign : assign g2 0 s (.ref n) = .ok g') :
    Shows g' s (.object ((enumerationOrder F).reverse ++ G)) := by
  have hFields : (src.objectFields? (.ref c)).getD [] = enumerationOrder F := by
    simp [objectFields?, hNode]
  have hBelow : Below rank [(c, n)] (enumerationOrder F) := by
    have hObj : Below rank [(c, n)] ((src.objectFields? (.ref c)).getD []) :=
      below_objectFields hRank hNode (fun p hp => by cases hp)
    rwa [hFields] at hObj
  have hClosedF : ∀ kv ∈ enumerationOrder F, ∀ c' ∈ kv.2.refs, c' < src.nodes.size :=
    fun kv hkv c' hc' => hClosed c _ hNode c'
      (refs_objectFields hNode (by rw [hFields]; exact hkv) c' hc')
  obtain ⟨node2, F2, hNode2, -, hRec2, hLook2⟩ := mergeFields_record (P := (· = n)) hRank
    hn0 rfl (enumerationOrder F) g0 g2 node0 F0 hMerge hA0 hBelow hFree0 hClosedF hNode0 hRec0
  obtain ⟨hA2, -⟩ := mergeFields_apart hRank _ _ g0 n _ g2 hMerge hn0 hA0 hBelow hFree0
  exact shows_object_of_assign hA2 hn0 hRoot2 hOnly hNode2 hRec2 (agrees_merged hLook2 hAgree0)
    hAssign

/-- A mapping of the layer merged into the node the section already refers to: a list or an
instant stays one, and an object takes the mapping's fields over its own. -/
private theorem step_mapping_into (hRank : Ranked src rank) {fuel : Nat} {g g2 g' : Graph}
    {s : Text} {σ : Section} {R : List (Text × Item)} {c n : Nat} {F : List (Text × Item)}
    (hShows : Shows g s σ) (hRoot : g.node? 0 = some (.mapping R))
    (hBlank : σ = .blank → ∀ c, lookup R s ≠ some (.ref c)) (hDated : Dated g shared)
    (hClosed : ∀ m node, src.node? m = some node → ∀ c ∈ node.refs, c < src.nodes.size)
    (hNode : src.node? c = some (.mapping F)) (hLook : lookup R s = some (.ref n)) (hn0 : n ≠ 0)
    (hMerge : mergeFields src shared (fuel + 1) [(c, n)] g n (enumerationOrder F) = .ok g2)
    (hRoot2 : g2.node? 0 = some (.mapping R))
    (hClosedEnd : ∀ {node1 : Node}, g.node? n = some node1 →
      (node1.kind = .list ∨ node1.kind = .date) → Shows g' s .closed)
    (hAssign : assign g2 0 s (.ref n) = .ok g') :
    ∃ σ', Section.Step src σ (.ref c) σ' ∧ Shows g' s σ' := by
  cases σ with
  | blank => exact absurd hLook (hBlank rfl n)
  | closed =>
    obtain ⟨-, R', c0, node0, hRoot', hLook0, hNode0, hKind0⟩ := hShows
    rw [hRoot] at hRoot'
    cases hRoot'
    rw [hLook] at hLook0
    cases hLook0
    exact ⟨.closed, .mappingClosed hNode, hClosedEnd hNode0 hKind0⟩
  | object G =>
    obtain ⟨R', c0, node0, F0, hRoot', hLook0, hNode0, hRec0, hAgree0, hA0, hOnly0⟩ := hShows
    rw [hRoot] at hRoot'
    cases hRoot'
    rw [hLook] at hLook0
    cases hLook0
    -- instants are free of the object's node, which is no instant
    have hFree0 : ∀ p ∈ shared, Free (· = n) g p.2 := by
      refine hDated.free hRoot fun c' hc' hDate => ?_
      rw [hc', hNode0] at hDate
      cases node0 <;> simp [Node.record?, Node.kind] at hRec0 hDate
    exact ⟨_, .mappingInto hNode, shows_object_of_merge hRank hClosed hNode hn0 hA0 hNode0 hRec0
      hAgree0 hFree0 hMerge hRoot2 hOnly0 hAssign⟩

/-- A mapping of the layer where nothing is in place goes into a new mapping. -/
private theorem step_mapping_new (hRank : Ranked src rank) {fuel : Nat} {g g2 g' : Graph}
    {s : Text} {σ : Section} {R : List (Text × Item)} {c : Nat} {F : List (Text × Item)}
    (hShows : Shows g s σ) (hA : Apart (fun _ => False) g)
    (hRoot : g.node? 0 = some (.mapping R)) (hDated : Dated g shared)
    (hClosed : ∀ m node, src.node? m = some node → ∀ c ∈ node.refs, c < src.nodes.size)
    (hNode : src.node? c = some (.mapping F)) (hNotRef : ∀ e, itemAt? g 0 s ≠ some (.ref e))
    (hMerge : mergeFields src shared (fuel + 1) [(c, g.nodes.size)] (g.alloc (.mapping [])).1
      g.nodes.size (enumerationOrder F) = .ok g2)
    (hRoot2 : g2.node? 0 = some (.mapping R))
    (hAssign : assign g2 0 s (.ref g.nodes.size) = .ok g') :
    ∃ σ', Section.Step src σ (.ref c) σ' ∧ Shows g' s σ' := by
  -- nothing is in place, so the section was blank
  have hσ : σ = .blank := by
    cases σ with
    | blank => rfl
    | closed =>
      obtain ⟨-, R', c0, -, hRoot', hLook0, -⟩ := hShows
      rw [hRoot] at hRoot'
      cases hRoot'
      exact absurd (by simp only [itemAt?, hRoot]; exact hLook0) (hNotRef c0)
    | object G =>
      obtain ⟨R', c0, -, -, hRoot', hLook0, -⟩ := hShows
      rw [hRoot] at hRoot'
      cases hRoot'
      exact absurd (by simp only [itemAt?, hRoot]; exact hLook0) (hNotRef c0)
  subst hσ
  have hA0 : Apart (· = g.nodes.size) (g.alloc (.mapping [])).1 :=
    hA.protect_alloc (by simp [Node.refs, Node.items])
  have hRoot0 : (g.alloc (.mapping [])).1.node? 0 = some (.mapping R) := by
    rw [node?_alloc_ne (Nat.ne_of_lt hA.root_lt), hRoot]
  have hFree0 : ∀ p ∈ shared, Free (· = g.nodes.size) (g.alloc (.mapping [])).1 p.2 := by
    refine (hDated.mono (kindsKept_alloc g _)).free hRoot0 fun c' hc' hDate => ?_
    rw [hc', node?_alloc_self] at hDate
    cases hDate
  have hShows' := shows_object_of_merge (G := []) hRank hClosed hNode
    (Nat.ne_of_gt hA.root_lt) hA0 node?_alloc_self rfl (fun _ _ _ => rfl) hFree0 hMerge hRoot2
    (fun k hMem => absurd hMem (hA.root_not_mem hRoot k)) hAssign
  rw [List.append_nil] at hShows'
  exact ⟨_, .mappingNew hNode, hShows'⟩

/-- A collection of the layer merged into a node: a list ends as a list, binary data as a list
when something is in place, and a mapping as `step_mapping_into` and `step_mapping_new` say. -/
private theorem step_into (hRank : Ranked src rank) {fuel : Nat} {g g1 g2 g' : Graph}
    {s : Text} {σ : Section} {R : List (Text × Item)} {c n : Nat} {node : Node}
    (hShows : Shows g s σ) (hA : Apart (fun _ => False) g)
    (hRoot : g.node? 0 = some (.mapping R))
    (hBlank : σ = .blank → ∀ c, lookup R s ≠ some (.ref c))
    (hFuel : src.nodes.size ≤ fuel) (hc : c < src.nodes.size)
    (hClosed : ∀ m node, src.node? m = some node → ∀ c ∈ node.refs, c < src.nodes.size)
    (hDated : Dated g shared)
    (hShare : ∀ c ms F, src.node? c = some (.date ms F) → (shared.lookup c).isSome)
    (hNotShared : shared.lookup c = none) (hNode : src.node? c = some node)
    (hPl : placement g (itemAt? g 0 s) node = .ok (g1, .into n))
    (hRec : mergeFields src shared fuel [(c, n)] g1 n ((src.objectFields? (.ref c)).getD []) =
      .ok g2)
    (hAssign : assign g2 0 s (.ref n) = .ok g') :
    ∃ σ', Section.Step src σ (.ref c) σ' ∧ Shows g' s σ' ∧ KindsKept g g' := by
  have hFree : ∀ p ∈ shared, Free (fun _ => False) g p.2 :=
    hDated.free hRoot fun _ h => h.elim
  -- what is in place under `s` is a child of the root
  have hIn : ∀ e, itemAt? g 0 s = some (.ref e) → Free (fun _ => False) g e :=
    hA.free_itemAt hRoot fun _ _ h => h
  obtain ⟨hA1, hLe1, hKeep1, hInto, -⟩ := placement_apart hA hIn hPl
  have hn := hInto n rfl
  have hKinds2 : KindsKept g g2 :=
    (kindsKept_placement hPl).trans (mergeFields_kinds _ _ g1 n _ g2 hRec)
  obtain ⟨hA2, hKeeps2⟩ := mergeFields_apart hRank _ _ g1 n _ g2 hRec hn.1 hA1
    (below_objectFields hRank hNode (fun p hp => by cases hp))
    (fun p hp => (hFree p hp).mono hLe1)
  have hRoot2 : g2.node? 0 = some (.mapping R) := by
    rw [hKeeps2.2.1, hKeep1 0 hA.root_lt, hRoot]
  have hKinds : KindsKept g g' := hKinds2.trans (kindsKept_assign hAssign)
  -- a list or an instant the collection went into stays one
  have hClosedEnd : ∀ {node1 : Node}, g1.node? n = some node1 →
      (node1.kind = .list ∨ node1.kind = .date) → Shows g' s .closed := by
    intro node1 hNode1 hKind1
    have hKindN := (mergeFields_kinds _ _ g1 n _ g2 hRec).2 n (lt_size_of_node? hNode1)
    rw [hNode1] at hKindN
    cases hNode2 : g2.node? n with
    | none =>
      rw [hNode2] at hKindN
      cases hKindN
    | some node2 =>
      rw [hNode2] at hKindN
      exact shows_closed_of_assign hA2 hRoot2 hNode2 (Option.some.inj hKindN ▸ hKind1) hAssign
  have hListEnd : (g1.node? n).map Node.kind = some .list → Shows g' s .closed := by
    intro hList
    cases hNode1 : g1.node? n with
    | none =>
      rw [hNode1] at hList
      cases hList
    | some node1 =>
      rw [hNode1] at hList
      exact hClosedEnd hNode1 (.inl (Option.some.inj hList))
  cases node with
  | list items holes F =>
    obtain ⟨n', hEq, hList⟩ := placement_list_kind hPl
    cases hEq
    exact ⟨.closed, .list hNode, hListEnd hList, hKinds⟩
  | bytes data F =>
    rcases placement_bytes_kind hPl with ⟨n', hEq, hList⟩ | hCopy
    · cases hEq
      -- binary data goes into a list only when something is in place
      have hNotBlank : σ ≠ .blank := by
        intro hσ
        have hNone := hBlank hσ
        simp only [placement] at hPl
        split at hPl
        · rename_i e hIn'
          simp only [itemAt?, hRoot] at hIn'
          exact hNone e hIn'
        · cases hPl
      exact ⟨.closed, .bytesList hNotBlank hNode, hListEnd hList, hKinds⟩
    · cases hCopy
  | date ms F =>
    have hSome := hShare c ms F hNode
    rw [hNotShared] at hSome
    cases hSome
  | mapping F =>
    have hFields : (src.objectFields? (.ref c)).getD [] = enumerationOrder F := by
      simp [objectFields?, hNode]
    rw [hFields] at hRec
    obtain ⟨fuel', rfl⟩ : ∃ fuel', fuel = fuel' + 1 := ⟨fuel - 1, by omega⟩
    rcases placement_mapping hPl with ⟨e, hIn', hg1, hpl⟩ | ⟨hNotRef, hg1, hpl⟩
    · cases hpl
      rw [hg1] at hRec hClosedEnd
      have hLook : lookup R s = some (.ref n) := by
        simp only [itemAt?, hRoot] at hIn'
        exact hIn'
      obtain ⟨σ', hStep, hShows'⟩ := step_mapping_into hRank hShows hRoot hBlank hDated hClosed
        hNode hLook hn.1 hRec hRoot2 hClosedEnd hAssign
      exact ⟨σ', hStep, hShows', hKinds⟩
    · cases hpl
      rw [hg1] at hRec
      obtain ⟨σ', hStep, hShows'⟩ := step_mapping_new hRank hShows hA hRoot hDated hClosed hNode
        hNotRef hRec hRoot2 hAssign
      exact ⟨σ', hStep, hShows', hKinds⟩

/-- Binary data of the layer copied without its named fields into a new node. -/
private theorem step_copy {g g1 g' : Graph} {s : Text} {σ : Section} {R : List (Text × Item)}
    {c : Nat} {node node' : Node} (hA : Apart (fun _ => False) g)
    (hRoot : g.node? 0 = some (.mapping R))
    (hShare : ∀ c ms F, src.node? c = some (.date ms F) → (shared.lookup c).isSome)
    (hNotShared : shared.lookup c = none) (hNode : src.node? c = some node)
    (hPl : placement g (itemAt? g 0 s) node = .ok (g1, .copy node'))
    (hAssign : assign (g1.alloc node').1 0 s (.ref g1.nodes.size) = .ok g') :
    ∃ σ', Section.Step src σ (.ref c) σ' ∧ Shows g' s σ' ∧ KindsKept g g' := by
  cases node with
  | mapping F =>
    rcases placement_mapping hPl with ⟨e, -, -, hpl⟩ | ⟨-, -, hpl⟩ <;> cases hpl
  | list items holes F =>
    obtain ⟨n', hpl, -⟩ := placement_list_kind hPl
    cases hpl
  | date ms F =>
    have hSome := hShare c ms F hNode
    rw [hNotShared] at hSome
    cases hSome
  | bytes data F =>
    have hCopy : node' = .bytes data [] := by
      rcases placement_bytes_kind hPl with ⟨n', hpl, -⟩ | hpl
      · cases hpl
      · cases hpl
        rfl
    subst hCopy
    have hg1 : g1 = g := by
      rcases placement_cases hPl with ⟨hg, -⟩ | ⟨hg, -⟩ | ⟨-, -, hpl, -⟩
      · exact hg
      · exact hg
      · cases hpl
    subst hg1
    have hA0 : Apart (· = g1.nodes.size) (g1.alloc (.bytes data [])).1 :=
      hA.protect_alloc (by simp [Node.refs, Node.items])
    have hRoot0 : (g1.alloc (.bytes data [])).1.node? 0 = some (.mapping R) := by
      rw [node?_alloc_ne (Nat.ne_of_lt hA.root_lt), hRoot]
    exact ⟨_, .bytesCopy hNode, shows_object_of_assign hA0 (Nat.ne_of_gt hA.root_lt) hRoot0
      (fun k hMem => absurd hMem (hA.root_not_mem hRoot k)) node?_alloc_self rfl
      (fun _ _ _ => rfl) hAssign, (kindsKept_alloc g1 _).trans (kindsKept_assign hAssign)⟩

/-- **Merging a section's own key is a step.** Whatever the kind of the layer's item, the
section becomes what `Section.Step` allows. -/
theorem Shows.step (hRank : Ranked src rank) {fuel : Nat} {g g' : Graph} {s : Text} {v : Item}
    {σ : Section} (hShows : Shows g s σ) (h : mergeEntry src shared fuel [] g 0 s v = .ok g')
    (hs : s ≠ protoKey) (hFuel : src.nodes.size ≤ fuel) (hv : ∀ c ∈ v.refs, c < src.nodes.size)
    (hClosed : ∀ m node, src.node? m = some node → ∀ c ∈ node.refs, c < src.nodes.size)
    (hDated : Dated g shared)
    (hInstant : ∀ c t', shared.lookup c = some t' → ∃ ms F, src.node? c = some (.date ms F))
    (hShare : ∀ c ms F, src.node? c = some (.date ms F) → (shared.lookup c).isSome) :
    ∃ σ', Section.Step src σ v σ' ∧ Shows g' s σ' ∧ KindsKept g g' := by
  obtain ⟨hA, R, hRoot, hBlank⟩ := hShows.base
  rcases mergeEntry_cases h with ⟨-, hWhy⟩ | ⟨hScalar, hAssign⟩ | ⟨c, t', rfl, hLook, hAssign⟩ |
    ⟨c, node, g1, n, g2, rfl, -, hNotShared, hNode, hPl, hRec, hAssign⟩ |
    ⟨c, node, g1, node', rfl, -, hNotShared, hNode, hPl, hAssign⟩
  · -- the section's key is no `__proto__`, and the layer's references name its nodes
    rcases hWhy with hp | ⟨c, rfl, hNone⟩
    · exact absurd hp hs
    · exact absurd hNone (node?_ne_none_of_lt (hv c (by simp)))
  · -- a scalar replaces the section
    refine ⟨.blank, .scalar hScalar, ⟨hA.after_assign hAssign
      (by simp [Item.refs_eq_nil_of_isScalar hScalar]), _, assign_root hRoot hAssign,
      fun c => ?_⟩, kindsKept_assign hAssign⟩
    rw [lookup_setField_self]
    intro hEq
    cases v <;> simp_all [Item.isScalar]
  · exact step_shared hA hRoot hDated hInstant hLook hAssign
  · exact step_into hRank hShows hA hRoot hBlank hFuel (hv c (by simp)) hClosed hDated hShare
      hNotShared hNode hPl hRec hAssign
  · exact step_copy hA hRoot hShare hNotShared hNode hPl hAssign

end Step

/-! ## A layer -/

/-- What a layer does to a section: nothing when its record lacks the section's key, one step
when it has it. -/
def Section.Merged (src : Graph) : Option Item → Section → Section → Prop
  | none, σ, σ' => σ' = σ
  | some v, σ, σ' => Section.Step src σ v σ'

/-- A graph that only adds nodes, and references from them to old ones, keeps `Apart`. -/
theorem Apart.grow {P : Nat → Prop} {g g' : Graph} (hA : Apart P g)
    (hLe : g.nodes.size ≤ g'.nodes.size) (hHolds : ∀ m c, g'.Holds m c → g.Holds m c) :
    Apart P g' :=
  ⟨Nat.lt_of_lt_of_le hA.root_lt hLe,
    fun m c h => Nat.lt_of_lt_of_le (hA.closed m c (hHolds m c h)) hLe,
    fun m h => hA.root_free m (hHolds m 0 h), fun c hP m h => hA.only_root c hP m (hHolds m c h),
    fun c hP => Nat.lt_of_lt_of_le (hA.protected_lt c hP) hLe⟩

/-- A graph that only adds nodes, and references from them to old ones, shows every section
as before. -/
theorem Shows.grow {g g' : Graph} {s : Text} {σ : Section} (hShows : Shows g s σ)
    (hLe : g.nodes.size ≤ g'.nodes.size) (hKeep : ∀ m, m < g.nodes.size → g'.node? m = g.node? m)
    (hHolds : ∀ m c, g'.Holds m c → g.Holds m c) : Shows g' s σ := by
  have hKeep' : ∀ {m node}, g.node? m = some node → g'.node? m = some node :=
    fun hNode => (hKeep _ (lt_size_of_node? hNode)).trans hNode
  cases σ with
  | blank =>
    obtain ⟨hA, R, hRoot, hNone⟩ := hShows
    exact ⟨hA.grow hLe hHolds, R, hKeep' hRoot, hNone⟩
  | closed =>
    obtain ⟨hA, R, c, node, hRoot, hLook, hNode, hKind⟩ := hShows
    exact ⟨hA.grow hLe hHolds, R, c, node, hKeep' hRoot, hLook, hKeep' hNode, hKind⟩
  | object F =>
    obtain ⟨R, c, node, F', hRoot, hLook, hNode, hRec, hAgree, hA, hOnly⟩ := hShows
    exact ⟨R, c, node, F', hKeep' hRoot, hLook, hKeep' hNode, hRec, hAgree, hA.grow hLe hHolds,
      hOnly⟩

section Fold

variable {src : Graph} {shared : List (Nat × Nat)} {rank : Nat → Nat} {s : Text}

/-- **Merging a record at the root.** With each key once, the section changes by at most the
one step of its own key. -/
theorem mergeFields_root (hRank : Ranked src rank) {fuel : Nat} (hFuel : src.nodes.size ≤ fuel)
    (hs : s ≠ protoKey)
    (hClosed : ∀ m node, src.node? m = some node → ∀ c ∈ node.refs, c < src.nodes.size)
    (hInstant : ∀ c t', shared.lookup c = some t' → ∃ ms F, src.node? c = some (.date ms F))
    (hShare : ∀ c ms F, src.node? c = some (.date ms F) → (shared.lookup c).isSome) :
    ∀ (fields : List (Text × Item)) (g g' : Graph) (σ : Section),
      mergeFields src shared (fuel + 1) [] g 0 fields = .ok g' → (fields.map (·.1)).Nodup →
      (∀ kv ∈ fields, ∀ c ∈ kv.2.refs, c < src.nodes.size) → Shows g s σ → Dated g shared →
      ∃ σ', Section.Merged src (lookup fields s) σ σ' ∧ Shows g' s σ'
  | [], g, g', σ, h, _, _, hShows, _ => by
    cases h
    exact ⟨σ, rfl, hShows⟩
  | (k, v) :: rest, g, g', σ, h, hKeys, hRefs, hShows, hDated => by
    obtain ⟨g1, hFirst, hRest⟩ := mergeFields_cons_ok h
    have hKeysRest : (rest.map (·.1)).Nodup := (List.nodup_cons.mp hKeys).2
    have hRefsRest := fun kv hkv => hRefs kv (List.mem_cons_of_mem _ hkv)
    by_cases hk : k = s
    · rw [hk] at hFirst
      obtain ⟨σ1, hStep, hShows1, hKinds1⟩ := hShows.step hRank hFirst hs hFuel
        (hRefs _ List.mem_cons_self) hClosed hDated hInstant hShare
      obtain ⟨σ', hMerged, hShows'⟩ := mergeFields_root hRank hFuel hs hClosed hInstant hShare
        rest g1 g' σ1 hRest hKeysRest hRefsRest hShows1 (hDated.mono hKinds1)
      -- the key comes once, so the rest leaves the section as the step made it
      have hNone : lookup rest s = none := by
        refine lookup_eq_none fun kv hkv hEq => (List.nodup_cons.mp hKeys).1 ?_
        rw [hk, ← hEq]
        exact List.mem_map.mpr ⟨kv, hkv, rfl⟩
      rw [hNone] at hMerged
      cases hMerged
      have hLook : lookup ((k, v) :: rest) s = some v := by simp [lookup, hk]
      rw [hLook]
      exact ⟨σ1, hStep, hShows'⟩
    · obtain ⟨hShows1, hKinds1⟩ := hShows.frame hRank hFirst hk hDated
      obtain ⟨σ', hMerged, hShows'⟩ := mergeFields_root hRank hFuel hs hClosed hInstant hShare
        rest g1 g' σ hRest hKeysRest hRefsRest hShows1 (hDated.mono hKinds1)
      have hLook : lookup ((k, v) :: rest) s = lookup rest s := by simp [lookup, hk]
      rw [hLook]
      exact ⟨σ', hMerged, hShows'⟩

end Fold

/-- A layer as loading reads it: every reference of its graph and record names a node, and
its record holds each key once. -/
structure Layer.Closed (l : Graph × List (Text × Item)) : Prop where
  nodes : ∀ m node, l.1.node? m = some node → ∀ c ∈ node.refs, c < l.1.nodes.size
  record : ∀ kv ∈ l.2, ∀ c ∈ kv.2.refs, c < l.1.nodes.size
  keys : (l.2.map (·.1)).Nodup

/-- **A layer changes a section by at most one step**, when it has no cycle. -/
theorem mergeLayer_section {l : Graph × List (Text × Item)} {rank : Nat → Nat}
    (hRank : Ranked l.1 rank) (hl : Layer.Closed l) {s : Text} (hs : s ≠ protoKey)
    {g g' : Graph} {σ : Section} (h : mergeLayer g l = .ok g') (hShows : Shows g s σ) :
    ∃ σ', Section.Merged l.1 (lookup l.2 s) σ σ' ∧ Shows g' s σ' := by
  obtain ⟨hLe, hKeep, hHolds, hPairs, hAll⟩ := shareInstants_spec l.1 g
  have hShows1 := hShows.grow hLe hKeep hHolds
  have hDated : Dated (shareInstants l.1 g).1 (shareInstants l.1 g).2 := by
    intro p hp
    obtain ⟨-, ⟨ms, hDate⟩, -⟩ := hPairs p hp
    rw [hDate]
    rfl
  have hInstant : ∀ c t', (shareInstants l.1 g).2.lookup c = some t' →
      ∃ ms F, l.1.node? c = some (.date ms F) := by
    intro c t' hLook
    obtain ⟨l₁, l₂, hEq, -⟩ := List.lookup_eq_some_iff.mp hLook
    exact (hPairs (c, t') (by rw [hEq]; simp)).2.2
  exact mergeFields_root hRank (Nat.le_refl _) hs hl.nodes hInstant hAll l.2 _ g' σ h hl.keys
    hl.record hShows1 hDated

end Graph

end Transcode
