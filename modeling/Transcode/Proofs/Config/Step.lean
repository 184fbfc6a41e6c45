import Transcode.Proofs.Graph.Basic

/-!
# Deep merge, one step at a time

`mergeFields` merges the fields of a source node one after another. `mergeEntry` is that step,
the merge of one source field into the target node, and `mergeFields_succ` says that a merge
is the fold of it. This module says once what each part of a step can do, so that every
invariant of a merge is a case analysis over a few outcomes.

## Main results

* `assign_cases`: storing an item keeps the node's kind and adds no reference but the item's.
* `placement_cases`: a source collection goes into the node in place, into a new node made
  from what was in place, or is copied without references.
* `shareInstants_spec`: the instants of a layer, and only they, are shared, each as a new
  instant of the target.
* `mergeEntry_cases`: what one step of a merge does.
-/

namespace Transcode

namespace Graph

/-! ## Storing an item -/

private theorem refs_of_items {node node' : Node} {v : Item}
    (h : ∀ x ∈ node'.items, x ∈ node.items ∨ x = v ∨ x = .null) :
    ∀ c ∈ node'.refs, c ∈ node.refs ∨ c ∈ v.refs := by
  intro c hc
  rcases h _ (Node.mem_refs.mp hc) with hx | hx | hx
  · exact .inl (Node.mem_refs.mpr hx)
  · exact .inr (by rw [← hx]; simp)
  · cases hx

private theorem mem_values_setField {fields : List (Text × Item)} {key : Text} {v x : Item}
    (h : x ∈ (setField fields key v).map (·.2)) : x ∈ fields.map (·.2) ∨ x = v := by
  obtain ⟨kv, hkv, rfl⟩ := List.mem_map.mp h
  rcases mem_setField hkv with hkv | hkv
  · exact .inl (List.mem_map_of_mem hkv)
  · exact .inr (by rw [hkv])

private theorem mem_setItem {items : List Item} {holes i : Nat} {v x : Item}
    (h : x ∈ (setItem items holes i v).1) : x ∈ items ∨ x = v ∨ x = .null := by
  unfold setItem at h
  split at h
  · rcases List.mem_or_eq_of_mem_set h with h | h
    · exact .inl h
    · exact .inr (.inl h)
  · simp only [List.mem_append, List.mem_replicate, List.mem_singleton] at h
    rcases h with (h | ⟨-, h⟩) | h
    · exact .inl h
    · exact .inr (.inr h)
    · exact .inr (.inl h)

private theorem mem_withLength {items : List Item} {n : Nat} {x : Item}
    (h : x ∈ (withLength items n).1) : x ∈ items := by
  unfold withLength at h
  split at h
  · exact List.mem_of_mem_take h
  · exact h

/-- A node whose named fields are replaced by `setField` refers to nothing new but the item. -/
private theorem refs_setField {node node' : Node} (fields : List (Text × Item)) (key : Text)
    {v : Item} (hOld : ∀ x ∈ fields.map (·.2), x ∈ node.items)
    (hNew : ∀ x ∈ node'.items, x ∈ node.items ∨ x ∈ (setField fields key v).map (·.2)) :
    ∀ c ∈ node'.refs, c ∈ node.refs ∨ c ∈ v.refs := by
  refine refs_of_items fun x hx => ?_
  rcases hNew x hx with hx | hx
  · exact .inl hx
  · rcases mem_values_setField hx with hx | hx
    · exact .inl (hOld x hx)
    · exact .inr (.inl hx)

/-- **What storing an item can do.** Either nothing (a key binary data does not keep, or no
node there), or the node is replaced by one of the same kind that refers to nothing but what
it referred to and the item. -/
theorem assign_cases {g g' : Graph} {t : Nat} {k : Text} {v : Item}
    (h : assign g t k v = .ok g') :
    g' = g ∨ ∃ node node', g.node? t = some node ∧ g' = g.update t (fun _ => node') ∧
      node'.kind = node.kind ∧ ∀ c ∈ node'.refs, c ∈ node.refs ∨ c ∈ v.refs := by
  unfold assign at h
  split at h
  · rename_i items holes fields hNode
    split at h
    · -- the length: the list is cut or grown
      simp only [bind, Except.bind] at h
      split at h
      · cases h
      · split at h
        · rename_i n _
          refine .inr ⟨_, .list (withLength items n).1 (withLength items n).2 fields, hNode,
            (Except.ok.inj h).symm, rfl, refs_of_items fun x hx => ?_⟩
          simp only [Node.items, List.mem_append] at hx ⊢
          rcases hx with hx | hx
          · exact .inl (.inl (mem_withLength hx))
          · exact .inl (.inr hx)
        · cases h
    · split at h
      · -- an index: the item is set, the gap before it filled with empty places
        rename_i i _
        refine .inr ⟨_, .list (setItem items holes i v).1 (setItem items holes i v).2 fields,
          hNode, (Except.ok.inj h).symm, rfl, refs_of_items fun x hx => ?_⟩
        simp only [Node.items, List.mem_append] at hx ⊢
        rcases hx with hx | hx
        · rcases mem_setItem hx with hx | hx | hx
          · exact .inl (.inl hx)
          · exact .inr (.inl hx)
          · exact .inr (.inr hx)
        · exact .inl (.inr hx)
      · refine .inr ⟨_, .list items holes (setField fields k v), hNode, (Except.ok.inj h).symm,
          rfl, refs_setField fields k (fun x hx => List.mem_append_right items hx) fun x hx => ?_⟩
        simp only [Node.items, List.mem_append] at hx ⊢
        rcases hx with hx | hx
        · exact .inl (.inl hx)
        · exact .inr hx
  · rename_i fields hNode
    exact .inr ⟨_, .mapping (setField fields k v), hNode, (Except.ok.inj h).symm, rfl,
      refs_setField fields k (by simp [Node.items]) fun x hx => .inr hx⟩
  · rename_i data fields hNode
    split at h
    · exact .inl (Except.ok.inj h).symm
    · exact .inr ⟨_, .bytes data (setField fields k v), hNode, (Except.ok.inj h).symm, rfl,
        refs_setField fields k (by simp [Node.items]) fun x hx => .inr hx⟩
  · rename_i ms fields hNode
    exact .inr ⟨_, .date ms (setField fields k v), hNode, (Except.ok.inj h).symm, rfl,
      refs_setField fields k (by simp [Node.items]) fun x hx => .inr hx⟩
  · exact .inl (Except.ok.inj h).symm

/-- A key that every object node keeps as a named field: no array index and no accessor of
binary data. -/
def Storable (k : Text) : Prop := arrayIndex? k = none ∧ k ∉ bytesAccessors

instance : DecidablePred Storable := fun _ => inferInstanceAs (Decidable (_ ∧ _))

/-- Storing an item into a mapping or binary data sets the key among its named fields when the
node keeps it, and leaves the node alone otherwise; either way every storable key reads the
item if it is the key stored, and what it read before if not. -/
theorem assign_record_lookup {g g' : Graph} {t : Nat} {k : Text} {v : Item} {node : Node}
    {fields : List (Text × Item)} (h : assign g t k v = .ok g') (hNode : g.node? t = some node)
    (hRec : node.record? = some fields) :
    ∃ node' fields', g'.node? t = some node' ∧ node'.kind = node.kind ∧
      node'.record? = some fields' ∧
      ∀ f, Storable f → lookup fields' f = (lookup [(k, v)] f).or (lookup fields f) := by
  have hSet : ∀ f, lookup (setField fields k v) f = (lookup [(k, v)] f).or (lookup fields f) := by
    intro f
    by_cases hf : f = k
    · rw [hf, lookup_setField_self]
      simp [lookup]
    · rw [lookup_setField_ne hf]
      have hOne : lookup [(k, v)] f = none := lookup_eq_none (by simpa using Ne.symm hf)
      rw [hOne]
      rfl
  cases node with
  | mapping fields' =>
    cases hRec
    simp only [assign, hNode, Except.ok.injEq] at h
    subst h
    exact ⟨.mapping (setField fields k v), _, by rw [node?_update_self, hNode]; rfl, rfl, rfl,
      fun f _ => hSet f⟩
  | bytes data fields' =>
    cases hRec
    simp only [assign, hNode] at h
    split at h
    · rename_i hSkip
      cases h
      refine ⟨_, _, hNode, rfl, rfl, fun f hf => ?_⟩
      -- a key binary data does not keep is no storable key
      have hNe : f ≠ k := by
        rintro rfl
        simp [hf.1, hf.2] at hSkip
      have hOne : lookup [(k, v)] f = none := lookup_eq_none (by simpa using Ne.symm hNe)
      rw [hOne]
      rfl
    · cases h
      exact ⟨.bytes data (setField fields k v), _, by rw [node?_update_self, hNode]; rfl, rfl,
        rfl, fun f _ => hSet f⟩
  | list _ _ _ => cases hRec
  | date _ _ => cases hRec

section Assign

variable {g g' : Graph} {t : Nat} {k : Text} {v : Item}

theorem size_assign (h : assign g t k v = .ok g') : g'.nodes.size = g.nodes.size := by
  rcases assign_cases h with rfl | ⟨node, node', -, rfl, -, -⟩
  · rfl
  · exact size_update

theorem node?_assign_ne {m : Nat} (h : assign g t k v = .ok g') (hm : m ≠ t) :
    g'.node? m = g.node? m := by
  rcases assign_cases h with rfl | ⟨node, node', -, rfl, -, -⟩
  · rfl
  · exact node?_update_ne hm

theorem kind_assign (h : assign g t k v = .ok g') (m : Nat) :
    (g'.node? m).map Node.kind = (g.node? m).map Node.kind := by
  rcases assign_cases h with rfl | ⟨node, node', hNode, rfl, hKind, -⟩
  · rfl
  · by_cases hm : m = t
    · rw [hm, node?_update_self, hNode]
      simp [hKind]
    · rw [node?_update_ne hm]

/-- After storing an item, a node refers to what it referred to before, or the stored node to
what the item refers to. -/
theorem holds_assign {m c : Nat} (h : assign g t k v = .ok g') (hHolds : g'.Holds m c) :
    g.Holds m c ∨ (m = t ∧ c ∈ v.refs) := by
  rcases assign_cases h with rfl | ⟨node, node', hNode, rfl, -, hRefs⟩
  · exact .inl hHolds
  · obtain ⟨n, hn, hc⟩ := hHolds
    by_cases hm : m = t
    · rw [hm, node?_update_self, hNode] at hn
      cases hn
      rcases hRefs c hc with hc | hc
      · exact .inl ⟨node, hm ▸ hNode, hc⟩
      · exact .inr ⟨hm, hc⟩
    · rw [node?_update_ne hm] at hn
      exact .inl ⟨n, hn, hc⟩

end Assign

/-! ## The item in place -/

/-- What a node holds under a key it refers to. -/
theorem holds_of_itemAt {g : Graph} {t e : Nat} {k : Text} (h : itemAt? g t k = some (.ref e)) :
    g.Holds t e := by
  have hField : ∀ {fields : List (Text × Item)}, lookup fields k = some (.ref e) →
      Item.ref e ∈ fields.map (·.2) := fun h => List.mem_map.mpr ⟨_, mem_of_lookup h, rfl⟩
  unfold itemAt? at h
  split at h
  · rename_i fields hNode
    exact ⟨_, hNode, Node.mem_refs.mpr (hField h)⟩
  · rename_i items holes fields hNode
    split at h
    · exact ⟨_, hNode, Node.mem_refs.mpr (List.mem_append_left _ (List.mem_of_getElem? h))⟩
    · exact ⟨_, hNode, Node.mem_refs.mpr (List.mem_append_right _ (hField h))⟩
  · rename_i data fields hNode
    split at h
    · obtain ⟨b, -, hb⟩ := Option.map_eq_some_iff.mp h
      cases hb
    · exact ⟨_, hNode, Node.mem_refs.mpr (hField h)⟩
  · rename_i ms fields hNode
    exact ⟨_, hNode, Node.mem_refs.mpr (hField h)⟩
  · cases h

/-! ## Where a source collection goes -/

private theorem refs_byteItems (data : List UInt8) : (Node.ofItems (byteItems data)).refs = [] := by
  simp [Node.ofItems, Node.refs, Node.items, byteItems, Item.refs]

private theorem refs_arrayLikeItems {g : Graph} {e c : Nat} {node : Node}
    {fields : List (Text × Item)} (hNode : g.node? e = some node)
    (hFields : namedFields? (some node) = some fields) (n : Nat)
    (hc : c ∈ (Node.ofItems (arrayLikeItems fields n)).refs) : g.Holds e c := by
  have hItem := Node.mem_refs.mp hc
  simp only [Node.ofItems, Node.items, List.map_nil, List.append_nil, arrayLikeItems,
    List.mem_map] at hItem
  obtain ⟨i, -, hi⟩ := hItem
  cases hLook : lookup fields (.ofString (toString i)) with
  | none => rw [hLook] at hi; cases hi
  | some x =>
    rw [hLook] at hi
    have hMem := mem_of_lookup hLook
    refine ⟨node, hNode, Node.mem_refs.mpr ?_⟩
    rw [Option.getD_some] at hi
    rw [← hi]
    cases node with
    | mapping fields' =>
      cases hFields
      exact List.mem_map.mpr ⟨_, hMem, rfl⟩
    | date ms fields' =>
      cases hFields
      exact List.mem_map.mpr ⟨_, hMem, rfl⟩
    | list _ _ _ => cases hFields
    | bytes _ _ => cases hFields

/-- The list a list merges into: the list in place itself, or a new list that refers only to
what the node in place refers to. -/
theorem listTarget_cases {g g1 : Graph} {e : Nat} {pl : Placement}
    (h : listTarget g e = .ok (g1, pl)) :
    (g1 = g ∧ pl = .into e ∧ (g.node? e).map Node.kind = some .list) ∨
    (∃ items, g1 = (g.alloc (.ofItems items)).1 ∧ pl = .into g.nodes.size ∧
      ∀ c ∈ (Node.ofItems items).refs, g.Holds e c) := by
  unfold listTarget at h
  split at h
  · rename_i items holes fields hNode
    cases h
    exact .inl ⟨rfl, rfl, by simp [hNode, Node.kind]⟩
  · rename_i data fields hNode
    cases h
    exact .inr ⟨_, rfl, rfl, by simp [refs_byteItems]⟩
  · split at h
    · rename_i n hLen
      split at h
      · cases h
        refine .inr ⟨_, rfl, rfl, fun c hc => ?_⟩
        obtain ⟨fields, hFields, -⟩ := Option.bind_eq_some_iff.mp hLen
        rw [hFields, Option.getD_some] at hc
        cases hNode : g.node? e with
        | none => rw [hNode] at hFields; cases hFields
        | some node =>
          rw [hNode] at hFields
          exact refs_arrayLikeItems hNode hFields n hc
      · cases h
    · cases h
      exact .inr ⟨[], rfl, rfl, by simp [Node.ofItems, Node.refs, Node.items]⟩

/-- A list from `listTarget` is a list. -/
theorem listTarget_kind {g g1 : Graph} {e : Nat} {pl : Placement}
    (h : listTarget g e = .ok (g1, pl)) :
    ∃ n, pl = .into n ∧ (g1.node? n).map Node.kind = some .list := by
  rcases listTarget_cases h with ⟨rfl, rfl, hKind⟩ | ⟨items, rfl, rfl, -⟩
  · exact ⟨e, rfl, hKind⟩
  · exact ⟨_, rfl, by rw [node?_alloc_self]; rfl⟩

/-- **Where a source collection goes.** Into the node in place; or it is copied as a node
without references; or into a new node that refers only to what the node in place refers
to. -/
theorem placement_cases {g g1 : Graph} {inPlace : Option Item} {src : Node} {pl : Placement}
    (h : placement g inPlace src = .ok (g1, pl)) :
    (g1 = g ∧ ∃ e, inPlace = some (.ref e) ∧ pl = .into e) ∨
    (g1 = g ∧ ∃ node, pl = .copy node ∧ node.refs = []) ∨
    (∃ node, g1 = (g.alloc node).1 ∧ pl = .into g.nodes.size ∧
      ∀ c ∈ node.refs, ∃ e, inPlace = some (.ref e) ∧ g.Holds e c) := by
  have hTarget : ∀ {e : Nat}, listTarget g e = .ok (g1, pl) → inPlace = some (.ref e) →
      (g1 = g ∧ ∃ e, inPlace = some (.ref e) ∧ pl = .into e) ∨
      (∃ node, g1 = (g.alloc node).1 ∧ pl = .into g.nodes.size ∧
        ∀ c ∈ node.refs, ∃ e, inPlace = some (.ref e) ∧ g.Holds e c) := by
    intro e hList hIn
    rcases listTarget_cases hList with ⟨rfl, rfl, -⟩ | ⟨items, rfl, rfl, hRefs⟩
    · exact .inl ⟨rfl, e, hIn, rfl⟩
    · exact .inr ⟨_, rfl, rfl, fun c hc => ⟨e, hIn, hRefs c hc⟩⟩
  have hFresh : ∀ {node : Node}, node.refs = [] → g1 = (g.alloc node).1 →
      pl = .into g.nodes.size →
      ∃ node, g1 = (g.alloc node).1 ∧ pl = .into g.nodes.size ∧
        ∀ c ∈ node.refs, ∃ e, inPlace = some (.ref e) ∧ g.Holds e c :=
    fun hRefs hg hpl => ⟨_, hg, hpl, by simp [hRefs]⟩
  unfold placement at h
  split at h
  · split at h
    · rcases hTarget h rfl with h | h
      · exact .inl h
      · exact .inr (.inr h)
    · cases h
      exact .inr (.inr (hFresh (by simp [Node.ofItems, Node.refs, Node.items]) rfl rfl))
  · split at h
    · split at h
      · rcases hTarget h rfl with h | h
        · exact .inl h
        · exact .inr (.inr h)
      · cases h
        exact .inr (.inl ⟨rfl, _, rfl, by simp [Node.refs, Node.items]⟩)
    · cases h
      exact .inr (.inl ⟨rfl, _, rfl, by simp [Node.refs, Node.items]⟩)
  all_goals
    split at h
    · cases h
      exact .inl ⟨rfl, _, rfl, rfl⟩
    · cases h
      exact .inr (.inr (hFresh (by simp [Node.refs, Node.items]) rfl rfl))

/-- A mapping goes into the node in place, whatever its kind, or into a new empty mapping. -/
theorem placement_mapping {g g1 : Graph} {inPlace : Option Item} {fields : List (Text × Item)}
    {pl : Placement} (h : placement g inPlace (.mapping fields) = .ok (g1, pl)) :
    (∃ e, inPlace = some (.ref e) ∧ g1 = g ∧ pl = .into e) ∨
    ((∀ e, inPlace ≠ some (.ref e)) ∧ g1 = (g.alloc (.mapping [])).1 ∧
      pl = .into g.nodes.size) := by
  simp only [placement] at h
  split at h
  · cases h
    exact .inl ⟨_, rfl, rfl, rfl⟩
  · rename_i hNot
    cases h
    exact .inr ⟨fun e hEq => hNot e hEq, rfl, rfl⟩

/-- A list goes into a list. -/
theorem placement_list_kind {g g1 : Graph} {inPlace : Option Item} {items : List Item}
    {holes : Nat} {fields : List (Text × Item)} {pl : Placement}
    (h : placement g inPlace (.list items holes fields) = .ok (g1, pl)) :
    ∃ n, pl = .into n ∧ (g1.node? n).map Node.kind = some .list := by
  simp only [placement] at h
  split at h
  · exact listTarget_kind h
  · cases h
    exact ⟨_, rfl, by rw [alloc_snd, node?_alloc_self]; rfl⟩

/-- Binary data goes into a list, or is copied without its named fields. -/
theorem placement_bytes_kind {g g1 : Graph} {inPlace : Option Item} {data : List UInt8}
    {fields : List (Text × Item)} {pl : Placement}
    (h : placement g inPlace (.bytes data fields) = .ok (g1, pl)) :
    (∃ n, pl = .into n ∧ (g1.node? n).map Node.kind = some .list) ∨
      pl = .copy (.bytes data []) := by
  simp only [placement] at h
  split at h
  · split at h
    · exact .inl (listTarget_kind h)
    · cases h
      exact .inr rfl
  · cases h
    exact .inr rfl

/-! ## Shared instants -/

/-- One step of `shareInstants`: an instant of the layer gets a new instant of the target. -/
private def shareStep (src : Graph) (acc : Graph × List (Nat × Nat)) (i : Nat) :
    Graph × List (Nat × Nat) :=
  match src.node? i with
  | some (.date ms _) => let (g, n) := acc.1.alloc (.date ms []); (g, (i, n) :: acc.2)
  | _ => acc

private theorem shareInstants_eq (src g : Graph) :
    shareInstants src g = (List.range src.nodes.size).foldl (shareStep src) (g, []) := rfl

/-- What sharing instants keeps: the nodes there were, and what they refer to; each pair
joins an instant of the layer with a new instant of the target, which refers to nothing. -/
private structure Shares (src g : Graph) (acc : Graph × List (Nat × Nat)) : Prop where
  size_le : g.nodes.size ≤ acc.1.nodes.size
  node?_eq : ∀ m, m < g.nodes.size → acc.1.node? m = g.node? m
  holds : ∀ m c, acc.1.Holds m c → g.Holds m c
  pairs : ∀ p ∈ acc.2, g.nodes.size ≤ p.2 ∧ (∃ ms, acc.1.node? p.2 = some (.date ms [])) ∧
    ∃ ms fields, src.node? p.1 = some (.date ms fields)

private theorem shares_step {src g : Graph} {acc : Graph × List (Nat × Nat)} (i : Nat)
    (h : Shares src g acc) :
    Shares src g (shareStep src acc i) ∧ (∀ p ∈ acc.2, p ∈ (shareStep src acc i).2) ∧
      ∀ ms fields, src.node? i = some (.date ms fields) →
        ∃ p ∈ (shareStep src acc i).2, p.1 = i := by
  unfold shareStep
  split
  · rename_i ms fields hNode
    refine ⟨⟨by simp; have := h.size_le; omega, fun m hm => ?_, fun m c hHolds => ?_,
      fun p hp => ?_⟩, fun p hp => List.mem_cons_of_mem _ hp, fun _ _ _ => ⟨_, List.mem_cons_self, rfl⟩⟩
    · rw [node?_alloc_ne (by have := h.size_le; omega)]
      exact h.node?_eq m hm
    · rcases holds_alloc hHolds with hHolds | ⟨-, hc⟩
      · exact h.holds m c hHolds
      · simp [Node.refs, Node.items] at hc
    · rcases List.mem_cons.mp hp with rfl | hp
      · exact ⟨h.size_le, ⟨ms, node?_alloc_self⟩, ms, fields, hNode⟩
      · obtain ⟨hLe, ⟨ms', hDate⟩, hSrc⟩ := h.pairs p hp
        refine ⟨hLe, ⟨ms', ?_⟩, hSrc⟩
        rw [node?_alloc_ne (Nat.ne_of_lt (lt_size_of_node? hDate))]
        exact hDate
  · rename_i hNot
    exact ⟨h, fun p hp => hp, fun ms fields hDate => absurd hDate (hNot ms fields)⟩

private theorem shares_foldl {src g : Graph} :
    ∀ (is : List Nat) (acc : Graph × List (Nat × Nat)), Shares src g acc →
      Shares src g (is.foldl (shareStep src) acc) ∧
        ∀ s, (s ∈ is ∨ ∃ p ∈ acc.2, p.1 = s) → ∀ ms fields,
          src.node? s = some (.date ms fields) → ∃ p ∈ (is.foldl (shareStep src) acc).2, p.1 = s
  | [], acc, h => ⟨h, fun s hs ms fields _ => by simpa using hs⟩
  | i :: is, acc, h => by
    obtain ⟨hStep, hKeep, hNew⟩ := shares_step i h
    obtain ⟨hAll, hFound⟩ := shares_foldl is _ hStep
    refine ⟨hAll, fun s hs ms fields hDate => hFound s ?_ ms fields hDate⟩
    rcases hs with hs | ⟨p, hp, rfl⟩
    · rcases List.mem_cons.mp hs with rfl | hs
      · exact .inr (hNew ms fields hDate)
      · exact .inl hs
    · exact .inr ⟨p, hKeep p hp, rfl⟩

/-- **Sharing a layer's instants.** The target keeps its nodes and what they refer to; each
pair joins an instant of the layer with a new instant of the target without fields; and every
instant of the layer has one. -/
theorem shareInstants_spec (src g : Graph) :
    g.nodes.size ≤ (shareInstants src g).1.nodes.size ∧
    (∀ m, m < g.nodes.size → (shareInstants src g).1.node? m = g.node? m) ∧
    (∀ m c, (shareInstants src g).1.Holds m c → g.Holds m c) ∧
    (∀ p ∈ (shareInstants src g).2,
      g.nodes.size ≤ p.2 ∧ (∃ ms, (shareInstants src g).1.node? p.2 = some (.date ms [])) ∧
        ∃ ms fields, src.node? p.1 = some (.date ms fields)) ∧
    (∀ s ms fields, src.node? s = some (.date ms fields) →
      ((shareInstants src g).2.lookup s).isSome) := by
  have hStart : Shares src g (g, []) := ⟨Nat.le_refl _, fun _ _ => rfl, fun _ _ h => h, by simp⟩
  obtain ⟨hShares, hFound⟩ := shares_foldl (List.range src.nodes.size) (g, []) hStart
  rw [shareInstants_eq]
  refine ⟨hShares.size_le, hShares.node?_eq, hShares.holds, hShares.pairs,
    fun s ms fields hDate => ?_⟩
  obtain ⟨p, hp, hKey⟩ := hFound s (.inl (List.mem_range.mpr (lt_size_of_node? hDate))) ms
    fields hDate
  exact List.lookup_isSome_iff.mpr ⟨p, hp, by simp [hKey]⟩

/-! ## One step of a merge -/

/-- One step of `mergeFields`: the merge of source field `k` with value `v` into target node
`t`. -/
def mergeEntry (src : Graph) (shared : List (Nat × Nat)) (fuel : Nat) (stack : List (Nat × Nat))
    (g : Graph) (t : Nat) (k : Text) (v : Item) : Except MergeError Graph :=
  if k = protoKey && !v.isScalar then .ok g
  else match v with
    | .ref s =>
      match stack.lookup s, shared.lookup s, src.node? s with
      | some t', _, _ | none, some t', _ => assign g t k (.ref t')
      | none, none, some node => do
        match ← placement g (itemAt? g t k) node with
        | (g, .into n) =>
          let fields := (src.objectFields? (.ref s)).getD []
          let g ← mergeFields src shared fuel ((s, n) :: stack) g n fields
          assign g t k (.ref n)
        | (g, .copy node) => let (g, n) := g.alloc node; assign g t k (.ref n)
      | none, none, none => .ok g
    | v => assign g t k v

/-- A merge with fuel left is the fold of its step over the source fields. -/
theorem mergeFields_succ (src : Graph) (shared : List (Nat × Nat)) (fuel : Nat)
    (stack : List (Nat × Nat)) (g : Graph) (t : Nat) (fields : List (Text × Item)) :
    mergeFields src shared (fuel + 1) stack g t fields =
      fields.foldlM (fun g kv => mergeEntry src shared fuel stack g t kv.1 kv.2) g := rfl

section Entry

variable {src : Graph} {shared : List (Nat × Nat)} {fuel : Nat} {stack : List (Nat × Nat)}
  {g g' : Graph} {t : Nat} {k : Text} {v : Item}

/-- **What one step of a merge does.** It stores a scalar; or refers the key to the node that
stands for a source node being merged already, or for an instant of the layer; or places a
source collection, merges the collection's fields into the node it went into and refers the
key to that node; or copies it. It does nothing only for a `__proto__` key or a source
reference to no node. -/
theorem mergeEntry_cases (h : mergeEntry src shared fuel stack g t k v = .ok g') :
    (g' = g ∧ (k = protoKey ∨ ∃ s, v = .ref s ∧ src.node? s = none)) ∨
    (v.isScalar = true ∧ assign g t k v = .ok g') ∨
    (∃ s t', v = .ref s ∧ (stack.lookup s = some t' ∨ shared.lookup s = some t') ∧
      assign g t k (.ref t') = .ok g') ∨
    (∃ s node g1 n g2, v = .ref s ∧ stack.lookup s = none ∧ shared.lookup s = none ∧
      src.node? s = some node ∧ placement g (itemAt? g t k) node = .ok (g1, .into n) ∧
      mergeFields src shared fuel ((s, n) :: stack) g1 n
        ((src.objectFields? (.ref s)).getD []) = .ok g2 ∧
      assign g2 t k (.ref n) = .ok g') ∨
    (∃ s node g1 node', v = .ref s ∧ stack.lookup s = none ∧ shared.lookup s = none ∧
      src.node? s = some node ∧ placement g (itemAt? g t k) node = .ok (g1, .copy node') ∧
      assign (g1.alloc node').1 t k (.ref g1.nodes.size) = .ok g') := by
  unfold mergeEntry at h
  split at h
  · rename_i hProto
    cases h
    simp only [Bool.and_eq_true, decide_eq_true_eq] at hProto
    exact .inl ⟨rfl, .inl hProto.1⟩
  · split at h
    · rename_i s _
      split at h
      · exact .inr (.inr (.inl ⟨s, _, rfl, .inl ‹_›, h⟩))
      · exact .inr (.inr (.inl ⟨s, _, rfl, .inr ‹_›, h⟩))
      · rename_i node hStack hShared hNode
        simp only [bind, Except.bind] at h
        split at h
        · cases h
        · rename_i r hPl
          obtain ⟨g1, pl⟩ := r
          cases pl with
          | into n =>
            simp only at h
            split at h
            · cases h
            · rename_i g2 hRec
              exact .inr (.inr (.inr (.inl ⟨s, node, g1, n, g2, rfl, hStack, hShared, hNode, hPl,
                hRec, h⟩)))
          | copy node' =>
            exact .inr (.inr (.inr (.inr ⟨s, node, g1, node', rfl, hStack, hShared, hNode, hPl,
              h⟩)))
      · cases h
        exact .inl ⟨rfl, .inr ⟨s, rfl, ‹_›⟩⟩
    · rename_i hNotRef
      refine .inr (.inl ⟨?_, h⟩)
      cases v with
      | ref s => exact absurd rfl (hNotRef s)
      | _ => rfl

/-- A property that every step keeps, along a relation that composes, holds across the whole
fold. -/
theorem foldlM_rel {α β ε : Type} {f : β → α → Except ε β} {I : β → Prop} {R : β → β → Prop}
    (hTrans : ∀ a b c, R a b → R b c → R a c) (hRefl : ∀ b, R b b) :
    ∀ (l : List α), (∀ b x b', x ∈ l → I b → f b x = .ok b' → I b' ∧ R b b') →
      ∀ b b', I b → l.foldlM f b = .ok b' → I b' ∧ R b b'
  | [], _, b, b', hI, h => by
    cases h
    exact ⟨hI, hRefl b⟩
  | x :: l, hStep, b, b', hI, h => by
    simp only [List.foldlM_cons, bind, Except.bind] at h
    split at h
    · cases h
    · rename_i b1 hFirst
      obtain ⟨hI1, hR1⟩ := hStep b x b1 List.mem_cons_self hI hFirst
      obtain ⟨hI', hR'⟩ := foldlM_rel hTrans hRefl l
        (fun b y b' hy => hStep b y b' (List.mem_cons_of_mem _ hy)) b1 b' hI1 h
      exact ⟨hI', hTrans _ _ _ hR1 hR'⟩

/-- A property that every step of a merge keeps holds across the merge. -/
theorem mergeFields_rel {src : Graph} {shared : List (Nat × Nat)} {fuel : Nat}
    {stack : List (Nat × Nat)} {t : Nat} {fields : List (Text × Item)} {I : Graph → Prop}
    {R : Graph → Graph → Prop} (hTrans : ∀ a b c, R a b → R b c → R a c) (hRefl : ∀ b, R b b)
    (hStep : ∀ g kv g', kv ∈ fields → I g →
      mergeEntry src shared fuel stack g t kv.1 kv.2 = .ok g' → I g' ∧ R g g')
    {g g' : Graph} (h : mergeFields src shared (fuel + 1) stack g t fields = .ok g') (hI : I g) :
    I g' ∧ R g g' := by
  rw [mergeFields_succ] at h
  exact foldlM_rel hTrans hRefl fields hStep g g' hI h

/-- A merge with fuel left merges its first field, then the rest. -/
theorem mergeFields_cons_ok {src : Graph} {shared : List (Nat × Nat)} {fuel : Nat}
    {stack : List (Nat × Nat)} {g g' : Graph} {t : Nat} {k : Text} {v : Item}
    {fields : List (Text × Item)}
    (h : mergeFields src shared (fuel + 1) stack g t ((k, v) :: fields) = .ok g') :
    ∃ g1, mergeEntry src shared fuel stack g t k v = .ok g1 ∧
      mergeFields src shared (fuel + 1) stack g1 t fields = .ok g' := by
  rw [mergeFields_succ, List.foldlM_cons] at h
  simp only [bind, Except.bind] at h
  split at h
  · cases h
  · rename_i g1 hFirst
    exact ⟨g1, hFirst, by rw [mergeFields_succ]; exact h⟩

end Entry

end Graph

end Transcode
