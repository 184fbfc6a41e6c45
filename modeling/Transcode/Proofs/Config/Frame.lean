import Transcode.Proofs.Config.Step

/-!
# Deep merge: what a merge leaves alone

Reading a section of the merged configuration needs two facts about a merge: merging the other
keys leaves the section's node alone, and merging into the section's node changes exactly the
keys it is given. Both rest on an invariant of the target, `Apart`: nothing refers to the root,
and the protected nodes (the sections' nodes) are referred to by the root only. A merge that
starts below the root follows only references out of nodes it has reached, so it never reaches
the root or a protected node.

A merge is also steered by its stack: a source node that is being merged already is not merged
again. For a layer without cycles that never happens. A `rank` that drops along the layer's
references stays, for every source field merged, below the rank of every node on the stack
(`Below`).

## Main results

* `mergeFields_kinds`: a merge keeps the kind of every node.
* `mergeFields_apart`: a merge below the root keeps `Apart`, the root, and every protected node
  it does not start at.
* `mergeFields_record`: merging into a protected mapping or binary data sets each storable key
  the source gives to the source's last value for it, up to which node a reference names.
-/

namespace Transcode

namespace Graph

/-! ## Kinds -/

/-- `g'` has the nodes of `g`, each of the same kind, and maybe more. -/
def KindsKept (g g' : Graph) : Prop :=
  g.nodes.size ≤ g'.nodes.size ∧
    ∀ m, m < g.nodes.size → (g'.node? m).map Node.kind = (g.node? m).map Node.kind

theorem KindsKept.refl (g : Graph) : KindsKept g g := ⟨Nat.le_refl _, fun _ _ => rfl⟩

theorem KindsKept.trans {g1 g2 g3 : Graph} (h12 : KindsKept g1 g2) (h23 : KindsKept g2 g3) :
    KindsKept g1 g3 :=
  ⟨Nat.le_trans h12.1 h23.1,
    fun m hm => (h23.2 m (Nat.lt_of_lt_of_le hm h12.1)).trans (h12.2 m hm)⟩

theorem kindsKept_alloc (g : Graph) (n : Node) : KindsKept g (g.alloc n).1 :=
  ⟨by simp, fun m hm => by rw [node?_alloc_ne (Nat.ne_of_lt hm)]⟩

theorem kindsKept_assign {g g' : Graph} {t : Nat} {k : Text} {v : Item}
    (h : assign g t k v = .ok g') : KindsKept g g' :=
  ⟨Nat.le_of_eq (size_assign h).symm, fun m _ => kind_assign h m⟩

theorem kindsKept_placement {g g1 : Graph} {inPlace : Option Item} {src : Node}
    {pl : Placement} (h : placement g inPlace src = .ok (g1, pl)) : KindsKept g g1 := by
  rcases placement_cases h with ⟨hEq, -⟩ | ⟨hEq, -⟩ | ⟨node, hEq, -, -⟩
  · rw [hEq]
    exact KindsKept.refl g
  · rw [hEq]
    exact KindsKept.refl g
  · rw [hEq]
    exact kindsKept_alloc g node

/-- **A merge keeps the kind of every node**, and only adds nodes. -/
theorem mergeFields_kinds {src : Graph} {shared : List (Nat × Nat)} :
    ∀ (fuel : Nat) (stack : List (Nat × Nat)) (g : Graph) (t : Nat)
      (fields : List (Text × Item)) (g' : Graph),
      mergeFields src shared fuel stack g t fields = .ok g' → KindsKept g g'
  | 0, _, g, _, _, g', h => by
    cases h
    exact KindsKept.refl _
  | fuel + 1, stack, g, t, fields, g', h => by
    refine (mergeFields_rel (I := fun _ => True) (fun _ _ _ h1 h2 => h1.trans h2)
      KindsKept.refl (fun g kv g' _ _ hStep => ⟨trivial, ?_⟩) h trivial).2
    rcases mergeEntry_cases hStep with ⟨rfl, -⟩ | ⟨-, hA⟩ | ⟨s, t', -, -, hA⟩ |
      ⟨s, node, g1, n, g2, -, -, -, -, hPl, hRec, hA⟩ | ⟨s, node, g1, node', -, -, -, -, hPl, hA⟩
    · exact KindsKept.refl _
    · exact kindsKept_assign hA
    · exact kindsKept_assign hA
    · exact ((kindsKept_placement hPl).trans (mergeFields_kinds fuel _ g1 n _ g2 hRec)).trans
        (kindsKept_assign hA)
    · exact ((kindsKept_placement hPl).trans (kindsKept_alloc g1 node')).trans
        (kindsKept_assign hA)

/-! ## Keeping the sections apart -/

section Apart

variable {P : Nat → Prop}

/-- A node any node may refer to: neither the root nor protected, and present. -/
def Free (P : Nat → Prop) (g : Graph) (c : Nat) : Prop := c ≠ 0 ∧ ¬ P c ∧ c < g.nodes.size

/-- The invariant a merge keeps for the protected nodes `P`: the graph has a root, every
reference names a node, nothing refers to the root, and only the root refers to a protected
node, which is present. -/
structure Apart (P : Nat → Prop) (g : Graph) : Prop where
  root_lt : 0 < g.nodes.size
  closed : ∀ m c, g.Holds m c → c < g.nodes.size
  root_free : ∀ m, ¬ g.Holds m 0
  only_root : ∀ c, P c → ∀ m, g.Holds m c → m = 0
  protected_lt : ∀ c, P c → c < g.nodes.size

theorem Free.mono {g g' : Graph} {c : Nat} (h : Free P g c)
    (hLe : g.nodes.size ≤ g'.nodes.size) : Free P g' c :=
  ⟨h.1, h.2.1, Nat.lt_of_lt_of_le h.2.2 hLe⟩

/-- What a node below the root refers to is free. -/
theorem Apart.free_of_holds {g : Graph} {t c : Nat} (hA : Apart P g) (ht : t ≠ 0)
    (h : g.Holds t c) : Free P g c :=
  ⟨fun hc => hA.root_free t (hc ▸ h), fun hP => ht (hA.only_root c hP t h), hA.closed t c h⟩

/-- The next node to be added is free. -/
theorem Apart.free_size {g : Graph} (hA : Apart P g) {g' : Graph}
    (hLt : g.nodes.size < g'.nodes.size) : Free P g' g.nodes.size :=
  ⟨Nat.ne_of_gt hA.root_lt, fun hP => Nat.lt_irrefl _ (hA.protected_lt _ hP), hLt⟩

theorem Apart.after_alloc {g : Graph} {n : Node} (hA : Apart P g) (hn : ∀ c ∈ n.refs, Free P g c) :
    Apart P (g.alloc n).1 := by
  refine ⟨by simp, fun m c hHolds => ?_, fun m hHolds => ?_, fun c hP m hHolds => ?_,
    fun c hP => by simp; have := hA.protected_lt c hP; omega⟩
  · rw [size_alloc]
    rcases holds_alloc hHolds with hHolds | ⟨-, hc⟩
    · have := hA.closed m c hHolds
      omega
    · have := (hn c hc).2.2
      omega
  · rcases holds_alloc hHolds with hHolds | ⟨-, hc⟩
    · exact hA.root_free m hHolds
    · exact (hn 0 hc).1 rfl
  · rcases holds_alloc hHolds with hHolds | ⟨-, hc⟩
    · exact hA.only_root c hP m hHolds
    · exact absurd hP (hn c hc).2.1

/-- Nothing refers to a node just added. -/
theorem Apart.not_holds_alloc {g : Graph} {n : Node} (hA : Apart P g)
    (hn : ∀ c ∈ n.refs, Free P g c) (m : Nat) : ¬ (g.alloc n).1.Holds m g.nodes.size := by
  intro hHolds
  rcases holds_alloc hHolds with hHolds | ⟨-, hc⟩
  · exact Nat.lt_irrefl _ (hA.closed m _ hHolds)
  · exact Nat.lt_irrefl _ (hn _ hc).2.2

/-- Storing an item keeps `Apart` when the item refers to present nodes other than the root,
and to a protected node only from the root. -/
theorem Apart.after_assign {g g' : Graph} {t : Nat} {k : Text} {v : Item} (hA : Apart P g)
    (h : assign g t k v = .ok g')
    (hv : ∀ c ∈ v.refs, c ≠ 0 ∧ c < g.nodes.size ∧ (P c → t = 0)) : Apart P g' := by
  have hSize := size_assign h
  refine ⟨hSize ▸ hA.root_lt, fun m c hHolds => ?_, fun m hHolds => ?_, fun c hP m hHolds => ?_,
    fun c hP => hSize ▸ hA.protected_lt c hP⟩
  · rw [hSize]
    rcases holds_assign h hHolds with hHolds | ⟨-, hc⟩
    · exact hA.closed m c hHolds
    · exact (hv c hc).2.1
  · rcases holds_assign h hHolds with hHolds | ⟨-, hc⟩
    · exact hA.root_free m hHolds
    · exact (hv 0 hc).1 rfl
  · rcases holds_assign h hHolds with hHolds | ⟨rfl, hc⟩
    · exact hA.only_root c hP m hHolds
    · exact (hv c hc).2.2 hP

/-- Storing a free item below the root keeps `Apart`. -/
theorem Apart.after_assign_free {g g' : Graph} {t : Nat} {k : Text} {v : Item} (hA : Apart P g)
    (h : assign g t k v = .ok g') (hv : ∀ c ∈ v.refs, Free P g c) : Apart P g' :=
  hA.after_assign h fun c hc => ⟨(hv c hc).1, (hv c hc).2.2, fun hP => absurd hP (hv c hc).2.1⟩

/-- **Placing a source collection keeps `Apart`** when the item in place is free: the nodes
there were stay, and the node the collection goes into is free. -/
theorem placement_apart {g g1 : Graph} {inPlace : Option Item} {src : Node} {pl : Placement}
    (hA : Apart P g) (hIn : ∀ e, inPlace = some (.ref e) → Free P g e)
    (h : placement g inPlace src = .ok (g1, pl)) :
    Apart P g1 ∧ g.nodes.size ≤ g1.nodes.size ∧
      (∀ c, c < g.nodes.size → g1.node? c = g.node? c) ∧
      (∀ n, pl = .into n → Free P g1 n) ∧ (∀ node, pl = .copy node → node.refs = []) := by
  rcases placement_cases h with ⟨rfl, e, hIn', rfl⟩ | ⟨rfl, node, rfl, hRefs⟩ |
    ⟨node, rfl, rfl, hRefs⟩
  · exact ⟨hA, Nat.le_refl _, fun _ _ => rfl, fun n hn => by cases hn; exact hIn e hIn',
      fun _ hpl => (by cases hpl)⟩
  · exact ⟨hA, Nat.le_refl _, fun _ _ => rfl, fun _ hpl => (by cases hpl),
      fun _ hpl => by cases hpl; exact hRefs⟩
  · -- a new node refers to what the free node in place refers to
    have hFree : ∀ c ∈ node.refs, Free P g c := by
      intro c hc
      obtain ⟨e, hIn', hHolds⟩ := hRefs c hc
      exact hA.free_of_holds (hIn e hIn').1 hHolds
    exact ⟨hA.after_alloc hFree, by simp, fun c hc => node?_alloc_ne (Nat.ne_of_lt hc),
      fun n hn => by cases hn; exact hA.free_size (by simp), fun _ hpl => (by cases hpl)⟩

end Apart

/-! ## Layers without cycles -/

/-- A rank that drops along every reference of `src`: `src` has no cycle. -/
def Ranked (src : Graph) (rank : Nat → Nat) : Prop :=
  ∀ m node, src.node? m = some node → ∀ c ∈ node.refs, rank c < rank m

/-- Every reference among `fields` ranks below every source node on the stack. -/
def Below (rank : Nat → Nat) (stack : List (Nat × Nat)) (fields : List (Text × Item)) : Prop :=
  ∀ kv ∈ fields, ∀ c ∈ kv.2.refs, ∀ p ∈ stack, rank c < rank p.1

/-- A source node ranked below the whole stack is not on it. -/
theorem lookup_eq_none_of_below {rank : Nat → Nat} {stack : List (Nat × Nat)} {c : Nat}
    (h : ∀ p ∈ stack, rank c < rank p.1) : stack.lookup c = none := by
  rw [List.lookup_eq_none_iff]
  intro p hp
  have hLt := h p hp
  have hNe : c ≠ p.1 := fun hEq => by rw [hEq] at hLt; exact Nat.lt_irrefl _ hLt
  simpa using hNe

/-- The fields a source node is merged with refer to what the node refers to. -/
theorem refs_objectFields {src : Graph} {s : Nat} {node : Node} (hNode : src.node? s = some node)
    {kv : Text × Item} (hkv : kv ∈ (src.objectFields? (.ref s)).getD []) :
    ∀ c ∈ kv.2.refs, c ∈ node.refs := by
  intro c hc
  have hRef : kv.2 = .ref c := by
    cases hv : kv.2 with
    | ref id => rw [hv] at hc; simp at hc; rw [hc]
    | _ => rw [hv] at hc; cases hc
  have hField : ∀ {fields : List (Text × Item)}, kv ∈ enumerationOrder fields →
      Item.ref c ∈ fields.map (·.2) :=
    fun h => List.mem_map.mpr ⟨kv, mem_enumerationOrder h, hRef⟩
  simp only [objectFields?, hNode] at hkv
  refine Node.mem_refs.mpr ?_
  cases node with
  | mapping fields => exact hField hkv
  | date ms fields => exact hField hkv
  | list items holes fields =>
    rcases List.mem_append.mp hkv with hkv | hkv
    · obtain ⟨⟨x, i⟩, hx, rfl⟩ := List.mem_map.mp hkv
      exact List.mem_append_left _ (hRef ▸ List.fst_mem_of_mem_zipIdx hx)
    · exact List.mem_append_right _ (hField hkv)
  | bytes data fields =>
    rcases List.mem_append.mp hkv with hkv | hkv
    · -- the bytes are numbers
      obtain ⟨⟨x, i⟩, hx, rfl⟩ := List.mem_map.mp hkv
      obtain ⟨b, -, rfl⟩ := List.mem_map.mp (List.fst_mem_of_mem_zipIdx hx)
      cases hRef
    · exact hField hkv

/-- Merging a source node's fields keeps the stack below them. -/
theorem below_objectFields {src : Graph} {rank : Nat → Nat} (hRank : Ranked src rank)
    {stack : List (Nat × Nat)} {s n : Nat} {node : Node} (hNode : src.node? s = some node)
    (hs : ∀ p ∈ stack, rank s < rank p.1) :
    Below rank ((s, n) :: stack) ((src.objectFields? (.ref s)).getD []) := by
  intro kv hkv c hc p hp
  have hDrop := hRank s node hNode c (refs_objectFields hNode hkv c hc)
  rcases List.mem_cons.mp hp with rfl | hp
  · exact hDrop
  · exact Nat.lt_trans hDrop (hs p hp)

/-! ## A merge below the root -/

section Merge

variable {P : Nat → Prop} {src : Graph} {shared : List (Nat × Nat)} {rank : Nat → Nat}

/-- `g'` keeps what `g` had of the root and of every protected node other than `t`, and only
adds nodes. -/
def Keeps (P : Nat → Prop) (t : Nat) (g g' : Graph) : Prop :=
  g.nodes.size ≤ g'.nodes.size ∧ g'.node? 0 = g.node? 0 ∧
    ∀ c, P c → c ≠ t → g'.node? c = g.node? c

theorem Keeps.refl (t : Nat) (g : Graph) : Keeps P t g g := ⟨Nat.le_refl _, rfl, fun _ _ _ => rfl⟩

theorem Keeps.trans {t : Nat} {g1 g2 g3 : Graph} (h12 : Keeps P t g1 g2) (h23 : Keeps P t g2 g3) :
    Keeps P t g1 g3 :=
  ⟨Nat.le_trans h12.1 h23.1, h23.2.1.trans h12.2.1,
    fun c hP hc => (h23.2.2 c hP hc).trans (h12.2.2 c hP hc)⟩

/-- Storing an item below the root keeps the root and every other node. -/
theorem keeps_assign {t : Nat} {g g' : Graph} {k : Text} {v : Item} (ht : t ≠ 0)
    (h : assign g t k v = .ok g') : Keeps P t g g' :=
  ⟨Nat.le_of_eq (size_assign h).symm, node?_assign_ne h (Ne.symm ht),
    fun _ _ hc => node?_assign_ne h hc⟩

/-- Adding a node keeps every node there was. -/
theorem keeps_grow {t : Nat} {g g' : Graph} (hA : Apart P g) (hLe : g.nodes.size ≤ g'.nodes.size)
    (hKeep : ∀ c, c < g.nodes.size → g'.node? c = g.node? c) : Keeps P t g g' :=
  ⟨hLe, hKeep 0 hA.root_lt, fun c hP _ => hKeep c (hA.protected_lt c hP)⟩

/-- One step of a merge below the root, given what the merges it starts below keep. -/
private theorem mergeEntry_apart (hRank : Ranked src rank) {fuel : Nat}
    (ih : ∀ stack g t fields g', mergeFields src shared fuel stack g t fields = .ok g' →
      t ≠ 0 → Apart P g → Below rank stack fields → (∀ p ∈ shared, Free P g p.2) →
      Apart P g' ∧ Keeps P t g g')
    {stack : List (Nat × Nat)} {g g' : Graph} {t : Nat} {k : Text} {v : Item}
    (h : mergeEntry src shared fuel stack g t k v = .ok g') (ht : t ≠ 0) (hA : Apart P g)
    (hv : ∀ c ∈ v.refs, ∀ p ∈ stack, rank c < rank p.1) (hShared : ∀ p ∈ shared, Free P g p.2) :
    Apart P g' ∧ Keeps P t g g' := by
  rcases mergeEntry_cases h with ⟨hEq, -⟩ | ⟨hScalar, hAssign⟩ | ⟨s, t', rfl, hLook, hAssign⟩ |
    ⟨s, node, g1, n, g2, rfl, -, -, hNode, hPl, hRec, hAssign⟩ |
    ⟨s, node, g1, node', rfl, -, -, -, hPl, hAssign⟩
  · rw [hEq]
    exact ⟨hA, Keeps.refl t g⟩
  · have hNone : v.refs = [] := Item.refs_eq_nil_of_isScalar hScalar
    exact ⟨hA.after_assign_free hAssign (by simp [hNone]), keeps_assign ht hAssign⟩
  · -- a source node on the stack would rank below itself, so this is an instant of the layer
    have hShared' : shared.lookup s = some t' := by
      rcases hLook with hLook | hLook
      · rw [lookup_eq_none_of_below (hv s (by simp))] at hLook
        cases hLook
      · exact hLook
    obtain ⟨l₁, l₂, hEq, -⟩ := List.lookup_eq_some_iff.mp hShared'
    have hFree := hShared (s, t') (by rw [hEq]; simp)
    exact ⟨hA.after_assign_free hAssign (by simpa using hFree), keeps_assign ht hAssign⟩
  · have hIn : ∀ e, itemAt? g t k = some (.ref e) → Free P g e :=
      fun e hIn => hA.free_of_holds ht (holds_of_itemAt hIn)
    obtain ⟨hA1, hLe1, hKeep1, hInto, -⟩ := placement_apart hA hIn hPl
    have hn := hInto n rfl
    obtain ⟨hA2, hKeeps2⟩ := ih _ g1 n _ g2 hRec hn.1 hA1
      (below_objectFields hRank hNode (hv s (by simp)))
      (fun p hp => (hShared p hp).mono hLe1)
    have hn2 : Free P g2 n := hn.mono hKeeps2.1
    refine ⟨hA2.after_assign_free hAssign (by simpa using hn2), ?_⟩
    refine ((keeps_grow hA hLe1 hKeep1).trans ?_).trans (keeps_assign ht hAssign)
    exact ⟨hKeeps2.1, hKeeps2.2.1, fun c hP _ => hKeeps2.2.2 c hP fun hcn => hn.2.1 (hcn ▸ hP)⟩
  · obtain ⟨hA1, hLe1, hKeep1, -, hCopy⟩ := placement_apart hA
      (fun e hIn => hA.free_of_holds ht (holds_of_itemAt hIn)) hPl
    have hRefs := hCopy node' rfl
    have hA2 := hA1.after_alloc (n := node') (by simp [hRefs])
    have hFresh : Free P (g1.alloc node').1 g1.nodes.size := hA1.free_size (by simp)
    refine ⟨hA2.after_assign_free hAssign (by simpa using hFresh), ?_⟩
    refine ((keeps_grow hA hLe1 hKeep1).trans (keeps_grow hA1 (by simp) fun c hc => ?_)).trans
      (keeps_assign ht hAssign)
    exact node?_alloc_ne (Nat.ne_of_lt hc)

/-- **A merge below the root keeps the sections apart.** It keeps `Apart`, the root, and
every protected node other than the one it starts at. -/
theorem mergeFields_apart (hRank : Ranked src rank) :
    ∀ (fuel : Nat) (stack : List (Nat × Nat)) (g : Graph) (t : Nat)
      (fields : List (Text × Item)) (g' : Graph),
      mergeFields src shared fuel stack g t fields = .ok g' → t ≠ 0 → Apart P g →
      Below rank stack fields → (∀ p ∈ shared, Free P g p.2) → Apart P g' ∧ Keeps P t g g'
  | 0, _, g, t, _, g', h, _, hA, _, _ => by
    cases h
    exact ⟨hA, Keeps.refl t _⟩
  | fuel + 1, stack, g, t, fields, g', h, ht, hA, hBelow, hShared => by
    have hStep : ∀ g kv g', kv ∈ fields → (Apart P g ∧ ∀ p ∈ shared, Free P g p.2) →
        mergeEntry src shared fuel stack g t kv.1 kv.2 = .ok g' →
        (Apart P g' ∧ ∀ p ∈ shared, Free P g' p.2) ∧ Keeps P t g g' := by
      intro g kv g' hkv hI hEntry
      obtain ⟨hA', hKeeps⟩ := mergeEntry_apart hRank
        (fun stack g t fields g' => mergeFields_apart hRank fuel stack g t fields g')
        hEntry ht hI.1 (hBelow kv hkv) hI.2
      exact ⟨⟨hA', fun p hp => (hI.2 p hp).mono hKeeps.1⟩, hKeeps⟩
    exact (mergeFields_rel (fun _ _ _ h1 h2 => h1.trans h2) (Keeps.refl t) hStep h
      ⟨hA, hShared⟩).imp_left And.left

end Merge

/-! ## Merging into a section -/

/-- An item as a check of a scalar field sees it: a scalar as it is, and every reference as
the same one, since no reference passes such a check. -/
def Item.shape : Item → Item
  | .ref _ => .ref 0
  | v => v

/-- What an option falls back on matters only up to its look. -/
theorem Item.shape_or_congr (a : Option Item) {b b' : Option Item}
    (h : b.map Item.shape = b'.map Item.shape) :
    (a.or b).map Item.shape = (a.or b').map Item.shape := by
  cases a <;> simp [h]

theorem node?_ne_none_of_lt {g : Graph} {c : Nat} (h : c < g.nodes.size) : g.node? c ≠ none := by
  simp [node?, h]

section Record

variable {P : Nat → Prop} {src : Graph} {shared : List (Nat × Nat)} {rank : Nat → Nat}

/-- What one step of a merge into a protected node does to its named fields. -/
private theorem mergeEntry_record (hRank : Ranked src rank) {fuel : Nat}
    {stack : List (Nat × Nat)} {g g' : Graph} {t : Nat} {k : Text} {v : Item} {node : Node}
    {fields : List (Text × Item)} (h : mergeEntry src shared fuel stack g t k v = .ok g')
    (ht : t ≠ 0) (hP : P t) (hA : Apart P g) (hv : ∀ c ∈ v.refs, ∀ p ∈ stack, rank c < rank p.1)
    (hShared : ∀ p ∈ shared, Free P g p.2) (hClosed : ∀ c ∈ v.refs, c < src.nodes.size)
    (hNode : g.node? t = some node) (hRec : node.record? = some fields) :
    ∃ node' fields', g'.node? t = some node' ∧ node'.kind = node.kind ∧
      node'.record? = some fields' ∧ ∀ f, Storable f → f ≠ protoKey →
        (lookup fields' f).map Item.shape = ((lookup [(k, v)] f).or (lookup fields f)).map Item.shape := by
  -- the node stays as it is until the key is stored into it
  have hStore : ∀ {g1 : Graph} {v' : Item}, g1.node? t = some node →
      assign g1 t k v' = .ok g' → (∀ f, (lookup [(k, v')] f).map Item.shape =
        (lookup [(k, v)] f).map Item.shape) →
      ∃ node' fields', g'.node? t = some node' ∧ node'.kind = node.kind ∧
        node'.record? = some fields' ∧ ∀ f, Storable f → f ≠ protoKey →
          (lookup fields' f).map Item.shape =
            ((lookup [(k, v)] f).or (lookup fields f)).map Item.shape := by
    intro g1 v' hNode1 hAssign hAlike
    obtain ⟨node', fields', hNode', hKind, hRec', hLook⟩ := assign_record_lookup hAssign hNode1 hRec
    refine ⟨node', fields', hNode', hKind, hRec', fun f hf _ => ?_⟩
    rw [hLook f hf]
    cases hOne : lookup [(k, v')] f with
    | none =>
      have hOne' := hAlike f
      rw [hOne] at hOne'
      cases hv' : lookup [(k, v)] f with
      | none => rfl
      | some x => rw [hv'] at hOne'; cases hOne'
    | some x =>
      have hOne' := hAlike f
      rw [hOne] at hOne'
      cases hv' : lookup [(k, v)] f with
      | none => rw [hv'] at hOne'; cases hOne'
      | some y => rw [hv'] at hOne'; simpa using hOne'
  have hRefAlike : ∀ s a f, (lookup [(k, .ref a)] f).map Item.shape =
      (lookup [(k, .ref s)] f).map Item.shape := by
    intro s a f
    by_cases hf : k = f <;> simp [lookup, hf, Item.shape]
  rcases mergeEntry_cases h with ⟨hEq, hWhy⟩ | ⟨-, hAssign⟩ | ⟨s, t', rfl, hLook, hAssign⟩ |
    ⟨s, node1, g1, n, g2, rfl, -, -, hNode1, hPl, hRecur, hAssign⟩ |
    ⟨s, node1, g1, node', rfl, -, -, -, hPl, hAssign⟩
  · rw [hEq]
    refine ⟨node, fields, hNode, rfl, hRec, fun f _ hf => ?_⟩
    rcases hWhy with hk | ⟨s, rfl, hNone⟩
    · have hOne : lookup [(k, v)] f = none := lookup_eq_none (by simp [hk, Ne.symm hf])
      rw [hOne]
      rfl
    · exact absurd hNone (node?_ne_none_of_lt (hClosed s (by simp)))
  · exact hStore hNode hAssign fun _ => rfl
  · exact hStore hNode hAssign (hRefAlike s t')
  · obtain ⟨hA1, hLe1, hKeep1, hInto, -⟩ := placement_apart hA
      (fun e hIn => hA.free_of_holds ht (holds_of_itemAt hIn)) hPl
    have hn := hInto n rfl
    obtain ⟨-, hKeeps2⟩ := mergeFields_apart hRank _ _ g1 n _ g2 hRecur hn.1 hA1
      (below_objectFields hRank hNode1 (hv s (by simp))) (fun p hp => (hShared p hp).mono hLe1)
    have hNode2 : g2.node? t = some node := by
      rw [hKeeps2.2.2 t hP fun htn => hn.2.1 (htn ▸ hP), hKeep1 t (lt_size_of_node? hNode)]
      exact hNode
    exact hStore hNode2 hAssign (hRefAlike s n)
  · obtain ⟨-, -, hKeep1, -, -⟩ := placement_apart hA
      (fun e hIn => hA.free_of_holds ht (holds_of_itemAt hIn)) hPl
    have hLt := lt_size_of_node? hNode
    have hNode2 : (g1.alloc node').1.node? t = some node := by
      rw [node?_alloc_ne, hKeep1 t hLt]
      · exact hNode
      · intro hEq
        have := lt_size_of_node? (hKeep1 t hLt ▸ hNode)
        omega
    exact hStore hNode2 hAssign (hRefAlike s _)

/-- **Merging into a protected mapping or binary data.** The node keeps its kind, and each
storable key other than `__proto__` reads the last value the source fields give it, or what it
read before if they give none, up to which node a reference names. -/
theorem mergeFields_record (hRank : Ranked src rank) {fuel : Nat} {stack : List (Nat × Nat)}
    {t : Nat} (ht : t ≠ 0) (hP : P t) :
    ∀ (fields : List (Text × Item)) (g g' : Graph) (node : Node) (F : List (Text × Item)),
      mergeFields src shared (fuel + 1) stack g t fields = .ok g' → Apart P g →
      Below rank stack fields → (∀ p ∈ shared, Free P g p.2) →
      (∀ kv ∈ fields, ∀ c ∈ kv.2.refs, c < src.nodes.size) →
      g.node? t = some node → node.record? = some F →
      ∃ node' F', g'.node? t = some node' ∧ node'.kind = node.kind ∧ node'.record? = some F' ∧
        ∀ f, Storable f → f ≠ protoKey →
          (lookup F' f).map Item.shape = ((lookup fields.reverse f).or (lookup F f)).map Item.shape
  | [], g, g', node, F, h, _, _, _, _, hNode, hRec => by
    cases h
    exact ⟨node, F, hNode, rfl, hRec, fun _ _ _ => rfl⟩
  | (k, v) :: rest, g, g', node, F, h, hA, hBelow, hShared, hClosed, hNode, hRec => by
    obtain ⟨g1, hFirst, hRest⟩ := mergeFields_cons_ok h
    have hv := hBelow (k, v) List.mem_cons_self
    obtain ⟨node1, F1, hNode1, hKind1, hRec1, hLook1⟩ := mergeEntry_record hRank hFirst ht hP hA
      hv hShared (hClosed (k, v) List.mem_cons_self) hNode hRec
    obtain ⟨hA1, hKeeps1⟩ := mergeEntry_apart hRank
      (fun stack g t fields g' => mergeFields_apart hRank fuel stack g t fields g') hFirst ht hA hv
      hShared
    obtain ⟨node', F', hNode', hKind', hRec', hLook'⟩ := mergeFields_record hRank ht hP rest g1 g'
      node1 F1 hRest hA1 (fun kv hkv => hBelow kv (List.mem_cons_of_mem _ hkv))
      (fun p hp => (hShared p hp).mono hKeeps1.1)
      (fun kv hkv => hClosed kv (List.mem_cons_of_mem _ hkv)) hNode1 hRec1
    refine ⟨node', F', hNode', hKind'.trans hKind1, hRec', fun f hf hp => ?_⟩
    rw [hLook' f hf hp, List.reverse_cons, lookup_append, Option.or_assoc]
    exact Item.shape_or_congr _ (hLook1 f hf hp)

end Record

end Graph

end Transcode
