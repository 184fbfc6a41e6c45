import Transcode.Config.Merge

/-!
# Object graphs: reading after writing

The small facts every argument about a merge goes through: what a graph reads after a node is
added or replaced, what a field list reads after a key is set, and which items a node refers
to. A node's `kind` is what no merge ever changes, and `Holds g m c` says that node `m` of `g`
holds a reference to node `c`; the invariants of a merge are said with these two.

## Main results

* `node?_alloc_ne`, `node?_update_ne`: a write leaves every other node alone.
* `lookup_setField_self`, `lookup_setField_ne`: setting a key is a pointwise update.
* `lookup_enumerationOrder_reverse`: enumeration order moves only index keys.
-/

namespace Transcode

namespace Graph

/-! ## What a node refers to -/

/-- The node an item refers to: the node of a reference, none for a scalar. -/
def Item.refs : Item → List Nat
  | .ref id => [id]
  | _ => []

/-- The items a node holds: a list's elements, then the values of its named fields. -/
def Node.items : Node → List Item
  | .list items _ fields => items ++ fields.map (·.2)
  | .mapping fields | .bytes _ fields | .date _ fields => fields.map (·.2)

/-- The nodes a node refers to. -/
def Node.refs (n : Node) : List Nat := n.items.flatMap Item.refs

/-- The kinds of node. -/
inductive Kind where
  | list
  | mapping
  | bytes
  | date
  deriving DecidableEq

/-- The kind of a node. -/
def Node.kind : Node → Kind
  | .list _ _ _ => .list
  | .mapping _ => .mapping
  | .bytes _ _ => .bytes
  | .date _ _ => .date

/-- The named fields validation reads as the properties of a node: those of a mapping, and
those of binary data (which, without any, reads as an object without properties). Lists and
instants are no objects to validation. -/
def Node.record? : Node → Option (List (Text × Item))
  | .mapping fields | .bytes _ fields => some fields
  | _ => none

/-- Node `m` of `g` holds a reference to node `c`. -/
def Holds (g : Graph) (m c : Nat) : Prop := ∃ node, g.node? m = some node ∧ c ∈ node.refs

@[simp] theorem Item.refs_ref (id : Nat) : (Item.ref id).refs = [id] := rfl

theorem Item.refs_eq_nil_of_isScalar {v : Item} (h : v.isScalar = true) : v.refs = [] := by
  cases v <;> first | rfl | cases h

theorem Node.mem_refs {n : Node} {c : Nat} : c ∈ n.refs ↔ .ref c ∈ n.items := by
  constructor
  · intro h
    obtain ⟨v, hv, hc⟩ := List.mem_flatMap.mp h
    cases v <;> simp_all [Item.refs]
  · intro h
    exact List.mem_flatMap.mpr ⟨.ref c, h, by simp⟩

/-! ## Adding and replacing nodes -/

section Nodes

variable {g : Graph} {n : Node} {m id : Nat} {f : Node → Node}

theorem lt_size_of_node? (h : g.node? m = some n) : m < g.nodes.size := by
  obtain ⟨hLt, -⟩ := Array.getElem?_eq_some_iff.mp h
  exact hLt

@[simp] theorem size_alloc : (g.alloc n).1.nodes.size = g.nodes.size + 1 := Array.size_push _

@[simp] theorem alloc_snd : (g.alloc n).2 = g.nodes.size := rfl

@[simp] theorem node?_alloc_self : (g.alloc n).1.node? g.nodes.size = some n := by
  simp [alloc, node?]

theorem node?_alloc_ne (h : m ≠ g.nodes.size) : (g.alloc n).1.node? m = g.node? m := by
  simp [alloc, node?, Array.getElem?_push, h]

@[simp] theorem size_update : (g.update id f).nodes.size = g.nodes.size := Array.size_modify

theorem node?_update_self : (g.update id f).node? id = (g.node? id).map f := by
  simp [update, node?, Array.getElem?_modify]

theorem node?_update_ne (h : m ≠ id) : (g.update id f).node? m = g.node? m := by
  simp [update, node?, Array.getElem?_modify, Ne.symm h]

/-- A mapping holds the nodes its fields refer to. -/
theorem holds_of_mem_mapping {fields : List (Text × Item)} {k : Text} {c : Nat}
    (hNode : g.node? m = some (.mapping fields)) (hMem : (k, Item.ref c) ∈ fields) :
    g.Holds m c :=
  ⟨_, hNode, Node.mem_refs.mpr (List.mem_map.mpr ⟨_, hMem, rfl⟩)⟩

/-- What a node added to the graph holds is all that is new. -/
theorem holds_alloc {c : Nat} (h : (g.alloc n).1.Holds m c) :
    g.Holds m c ∨ (m = g.nodes.size ∧ c ∈ n.refs) := by
  obtain ⟨node, hNode, hc⟩ := h
  by_cases hm : m = g.nodes.size
  · rw [hm, node?_alloc_self] at hNode
    cases hNode
    exact .inr ⟨hm, hc⟩
  · rw [node?_alloc_ne hm] at hNode
    exact .inl ⟨node, hNode, hc⟩

end Nodes

/-! ## Field lists -/

section Fields

variable {fields : List (Text × Item)} {key key' : Text} {v : Item}

theorem mem_of_lookup (h : lookup fields key = some v) : (key, v) ∈ fields := by
  unfold lookup at h
  obtain ⟨kv, hFind, hv⟩ := Option.map_eq_some_iff.mp h
  have hKey : kv.1 = key := by simpa using List.find?_some hFind
  have hMem := List.mem_of_find?_eq_some hFind
  rw [← hv, ← hKey]
  exact hMem

theorem lookup_eq_none (h : ∀ kv ∈ fields, kv.1 ≠ key) : lookup fields key = none := by
  unfold lookup
  rw [List.find?_eq_none.mpr (fun kv hkv => by simpa using h kv hkv)]
  rfl

theorem lookup_append : lookup (fields ++ fields') key = (lookup fields key).or (lookup fields' key) := by
  simp only [lookup, List.find?_append]
  cases fields.find? (·.1 = key) <;> rfl

/-- Setting a key keeps every entry's key, so it finds the same entry for every key. -/
private theorem find?_setField_map (key' : Text) :
    (fields.map fun kv => if kv.1 = key then (key, v) else kv).find? (·.1 = key') =
      (fields.find? (·.1 = key')).map fun kv => if kv.1 = key then (key, v) else kv := by
  have hPred : ((fun x : Text × Item => decide (x.1 = key')) ∘
      fun kv => if kv.1 = key then (key, v) else kv) = fun x => decide (x.1 = key') := by
    funext kv
    by_cases h : kv.1 = key <;> simp [h]
  rw [List.find?_map, hPred]

theorem mem_setField {kv : Text × Item} (h : kv ∈ setField fields key v) :
    kv ∈ fields ∨ kv = (key, v) := by
  unfold setField at h
  split at h
  · obtain ⟨kv', hMem, hEq⟩ := List.mem_map.mp h
    by_cases hk : kv'.1 = key
    · rw [if_pos hk] at hEq
      exact .inr hEq.symm
    · rw [if_neg hk] at hEq
      exact .inl (hEq ▸ hMem)
  · simpa using h

@[simp] theorem lookup_setField_self : lookup (setField fields key v) key = some v := by
  unfold setField
  split
  · rename_i hAny
    obtain ⟨kv, hMem, hKey⟩ := List.any_eq_true.mp hAny
    have hFind : (fields.find? (·.1 = key)).isSome := List.find?_isSome.mpr ⟨kv, hMem, hKey⟩
    obtain ⟨kv', hkv'⟩ := Option.isSome_iff_exists.mp hFind
    have hKey' : kv'.1 = key := by simpa using List.find?_some hkv'
    simp only [lookup]
    rw [find?_setField_map, hkv']
    simp [hKey']
  · rename_i hAny
    have hNone : lookup fields key = none :=
      lookup_eq_none fun kv hkv hEq => hAny (List.any_eq_true.mpr ⟨kv, hkv, by simpa using hEq⟩)
    rw [lookup_append, hNone]
    simp [lookup]

theorem lookup_setField_ne (h : key' ≠ key) :
    lookup (setField fields key v) key' = lookup fields key' := by
  unfold setField
  split
  · unfold lookup
    rw [find?_setField_map]
    cases hFind : fields.find? (·.1 = key') with
    | none => rfl
    | some kv =>
      have hKey : kv.1 = key' := by simpa using List.find?_some hFind
      have hNe : kv.1 ≠ key := hKey ▸ h
      simp [hNe]
  · rw [lookup_append]
    have hLast : lookup [(key, v)] key' = none := lookup_eq_none (by simpa using Ne.symm h)
    rw [hLast]
    cases lookup fields key' <;> rfl

/-- With each key once, the last entry of a key is its first. -/
theorem lookup_reverse_of_nodup (h : (fields.map (·.1)).Nodup) :
    lookup fields.reverse key = lookup fields key := by
  induction fields with
  | nil => rfl
  | cons kv rest ih =>
    have hNotMem : kv.1 ∉ rest.map (·.1) := (List.nodup_cons.mp h).1
    rw [List.reverse_cons, lookup_append, ih (List.nodup_cons.mp h).2]
    by_cases hk : kv.1 = key
    · have hRest : lookup rest key = none :=
        lookup_eq_none fun kv' hkv' hEq => hNotMem (hk ▸ hEq ▸ List.mem_map_of_mem hkv')
      rw [hRest]
      simp [lookup, hk]
    · have hOne : lookup [kv] key = none := lookup_eq_none (by simpa using hk)
      rw [hOne, Option.or_none]
      simp [lookup, hk]

end Fields

/-! ## Enumeration order -/

private theorem mem_insertByIndex {e x : Nat × (Text × Item)} {l : List (Nat × (Text × Item))}
    (h : x ∈ insertByIndex e l) : x = e ∨ x ∈ l := by
  induction l with
  | nil => simpa [insertByIndex] using h
  | cons e' rest ih =>
    unfold insertByIndex at h
    split at h
    · simpa using h
    · rcases List.mem_cons.mp h with hx | hx
      · exact .inr (hx ▸ List.mem_cons_self)
      · rcases ih hx with hx | hx
        · exact .inl hx
        · exact .inr (List.mem_cons_of_mem _ hx)

private theorem mem_foldl_insertByIndex {x : Nat × (Text × Item)} :
    ∀ (entries acc : List (Nat × (Text × Item))),
      x ∈ entries.foldl (fun acc e => insertByIndex e acc) acc → x ∈ acc ∨ x ∈ entries
  | [], _, h => .inl h
  | e :: rest, acc, h => by
    rcases mem_foldl_insertByIndex rest (insertByIndex e acc) h with hx | hx
    · rcases mem_insertByIndex hx with hx | hx
      · exact .inr (hx ▸ List.mem_cons_self)
      · exact .inl hx
    · exact .inr (List.mem_cons_of_mem _ hx)

/-- Enumeration order only reorders a field list. -/
theorem mem_enumerationOrder {fields : List (Text × Item)} {kv : Text × Item}
    (h : kv ∈ enumerationOrder fields) : kv ∈ fields := by
  unfold enumerationOrder at h
  rcases List.mem_append.mp h with h | h
  · obtain ⟨e, hMem, rfl⟩ := List.mem_map.mp h
    rcases mem_foldl_insertByIndex _ [] hMem with hNil | hIdx
    · cases hNil
    · obtain ⟨kv', hkv', hEq⟩ := List.mem_filterMap.mp hIdx
      obtain ⟨i, -, hEq'⟩ := Option.map_eq_some_iff.mp hEq
      rw [← hEq']
      exact hkv'
  · exact (List.mem_filter.mp h).1

/-- The index part of an enumeration holds index keys only. -/
private theorem isSome_of_mem_sorted {fields : List (Text × Item)} {kv : Text × Item}
    (h : kv ∈ ((fields.filterMap fun kv => (arrayIndex? kv.1).map fun i => (i, kv)).foldl
      (fun acc e => insertByIndex e acc) []).map (·.2)) : (arrayIndex? kv.1).isSome := by
  obtain ⟨e, hMem, rfl⟩ := List.mem_map.mp h
  rcases mem_foldl_insertByIndex _ [] hMem with hNil | hIdx
  · cases hNil
  · obtain ⟨kv', -, hEq⟩ := List.mem_filterMap.mp hIdx
    obtain ⟨i, hi, hEq'⟩ := Option.map_eq_some_iff.mp hEq
    rw [← hEq']
    simp [hi]

/-- A key that is no array index is found, from either end, where the field list has it. -/
theorem lookup_enumerationOrder_reverse {fields : List (Text × Item)} {key : Text}
    (hKey : arrayIndex? key = none) :
    lookup (enumerationOrder fields).reverse key = lookup fields.reverse key := by
  unfold enumerationOrder
  rw [List.reverse_append, lookup_append]
  have hSorted : ∀ kv ∈ (((fields.filterMap fun kv => (arrayIndex? kv.1).map fun i => (i, kv)).foldl
      (fun acc e => insertByIndex e acc) []).map (·.2)).reverse, kv.1 ≠ key := by
    intro kv hkv hEq
    have hSome := isSome_of_mem_sorted (List.mem_reverse.mp hkv)
    rw [hEq, hKey] at hSome
    cases hSome
  rw [lookup_eq_none hSorted, Option.or_none, ← List.filter_reverse]
  unfold lookup
  have hPred : (fun kv : Text × Item =>
      decide ((arrayIndex? kv.1).isNone = true ∧ decide (kv.1 = key) = true)) =
      fun kv => decide (kv.1 = key) := by
    funext kv
    by_cases h : kv.1 = key
    · simp [h, hKey]
    · simp [h]
  rw [List.find?_filter, hPred]

end Graph

end Transcode
