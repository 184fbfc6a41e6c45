import Transcode.Yaml.Scanner

/-!
# Composing YAML nodes

A node is composed from its properties (tag, anchor), then its content: a block sequence or
block mapping (only where block collections may start), a flow collection, a block scalar, a
quoted scalar, an alias or a plain scalar, tried in this order. Its tag then decides its value
(`Transcode.Yaml.Schema`): a plain scalar without a tag goes through the implicit types, an
explicit tag must name a type of the node's kind whose test accepts the content.

Collections are nodes of the document's object graph, added when their reading starts, so an
anchor on a collection names it while it is read and an alias inside it makes a cycle.

Mapping keys become texts: a list key joins its items with commas (a nested list is refused),
a mapping key is `[object Object]`, any other value shows as it prints. A key may not occur
twice in a mapping, except that keys brought in by a merge key `<<` may be overridden once
afterwards; a merge key takes the fields of an object (or of each object of a list of at most
a hundred) that the mapping does not have yet, and a stream's merges copy at most ten thousand
keys in all. Nodes nest at most a hundred deep.

Composition and the three collection readers call one another; every call takes one unit of a
fuel that starts far above what the input can use, since each nesting level and each entry
reads at least one unit of input or ends its collection.
-/

namespace Transcode

namespace Yaml

open Scan

/-- Where a node stands: inside a flow collection (as an entry or a key), or in block context
(as a sequence entry or a mapping value). -/
inductive Context where
  | flowIn
  | flowOut
  | blockIn
  | blockOut
  deriving DecidableEq

/-- Failure when the fuel is spent (never for a document the fuel was sized for). -/
def outOfFuel : Scan α := failWith "the document is nested too deeply"

/-- The deepest a node may be nested, the document's root being at depth one. -/
def maxDepth : Nat := 100

/-- The most entries a merge key's list of sources may have. -/
def maxMergeSources : Nat := 100

/-- The most keys merge keys may copy in one stream, each source counting one more than its
keys. -/
def maxMergedKeys : Nat := 10000

open Transcode.Graph (Item Node)

/-- Adds a node to the document's graph, giving its identifier. -/
def allocNode (n : Node) : Scan Nat := do
  let (g, id) := (← get).graph.alloc n
  modify fun s => { s with graph := g }
  return id

/-- The fields of a mapping node. -/
def mappingFields (g : Graph) (id : Nat) : List (Text × Item) :=
  match g.node? id with
  | some (.mapping fields) => fields
  | _ => []

/-- The text of a mapping key. -/
def keyText (k : Item) : Scan Text := do
  match (← get).graph.unfold 2 k with
  | .list items =>
    if items.any (fun i => match i with | .list _ => true | _ => false) then
      failWith "nested arrays are not supported inside keys"
    else pure (Value.displayItems items)
  | .mapping _ => pure (.ofString "[object Object]")
  | v => pure v.display

/-- Copies into mapping `target` the fields of `source` it lacks; they become overridable. The
source must be an object, and the keys copied in the whole stream are bounded. -/
def mergeMappings (target : Nat) (overridable : List Text) (source : Item) : Scan (List Text) := do
  let s ← get
  match s.graph.objectFields? source with
  | none => failWith "cannot merge mappings; the provided source object is unacceptable"
  | some fields =>
    let total := s.mergedKeys + fields.length + 1
    if total > maxMergedKeys then
      failWith ("merge keys exceeded maxTotalMergeKeys (" ++ toString maxMergedKeys ++ ")")
    modify fun s => { s with mergedKeys := total }
    fields.foldlM (fun overridable (k, v) => do
      let g := (← get).graph
      if Graph.hasField (mappingFields g target) k then return overridable
      modify fun s => { s with graph := g.setKey target k v }
      return if overridable.contains k then overridable else overridable ++ [k]) overridable

/-- Stores a key and its value into mapping `target`, or merges on `<<` (from one source or
from each of a list of at most `maxMergeSources`). A repeated key that is not overridable fails
at the key's place (a zero line, line start or offset keeps the cursor's own). -/
def storePair (target : Nat) (overridable : List Text) (keyTag : Option Text)
    (keyNode valueNode : Item) (line lineStart pos : Nat) : Scan (List Text) := do
  let key ← keyText keyNode
  if keyTag = some (.ofString (coreTag "merge")) then
    match listItems? (← get).graph valueNode with
    | some items =>
      if items.length > maxMergeSources then failWith "abnormal merge sequence size"
      items.foldlM (mergeMappings target) overridable
    | none => mergeMappings target overridable valueNode
  else
    let g := (← get).graph
    if !overridable.contains key && Graph.hasField (mappingFields g target) key then
      modify fun s => { s with
        line := if line = 0 then s.line else line
        lineStart := if lineStart = 0 then s.lineStart else lineStart
        pos := if pos = 0 then s.pos else pos }
      failWith "duplicated mapping key"
    modify fun s => { s with graph := g.setKey target key valueNode }
    return overridable.erase key

/-- `1`, `0` or `-1` as a line is indented more than, as much as, or less than its parent. -/
def indentOrder (lineIndent parentIndent : Int) : Int :=
  if lineIndent > parentIndent then 1 else if lineIndent = parentIndent then 0 else -1

/-- Where the reading of a node's properties stands: whether a line break was crossed (before
or after a property), whether block collections may still start, how the new line is
indented, and whether a line break followed the last property. -/
structure Properties where
  atNewLine : Bool
  blockCollections : Bool
  indentStatus : Int
  brokeLine : Bool

/-- Reads the tag and anchor properties of a node, with the separation after each. A node has
one tag and one anchor: a second one is an error when the node started on the line of its
properties, while on a new line it is left unread, since it belongs to the node's first key. -/
def readProperties (parentIndent : Int) (blockStyles : Bool) : Nat → Properties → Scan Properties
  | 0, st => pure st
  | fuel + 1, st => do
    let c ← peek
    let s ← get
    if st.atNewLine && ((c = 0x21 && s.tag.isSome) || (c = 0x26 && s.anchor.isSome)) then
      return st
    let isTag ← readTagProperty
    let found ← if isTag then pure true else readAnchorProperty
    if !found then return st
    if (← skipSeparationSpace true) > 0 then
      let s ← get
      readProperties parentIndent blockStyles fuel
        ⟨true, blockStyles, indentOrder s.lineIndent parentIndent, true⟩
    else
      readProperties parentIndent blockStyles fuel
        { st with blockCollections := false, brokeLine := false }

/-- The name of a possibly absent kind, as messages show it. -/
def kindName : Option NodeKind → String
  | some k => k.name
  | none => "null"

/-- Fails when a type's test would call a text operation the item does not have. -/
def checkTextOperation (ty : TypeDef) (v : Item) : Scan Unit := do
  if let some op := ty.textOperation? v then throw (.noTextOperation op)

/-- The first of the implicit types whose test accepts an item, tried in order. -/
def firstImplicit (g : Graph) (v : Item) : List TypeDef → Scan (Option TypeDef)
  | [] => pure none
  | ty :: rest => do
    checkTextOperation ty v
    if ty.resolve g v then pure (some ty) else firstImplicit g v rest

/-- Gives the node its value by its tag, and binds its anchor to that value. -/
def finishNode : Scan Unit := do
  let s ← get
  match s.tag with
  | none => if let some a := s.anchor then setAnchor a s.result
  | some t =>
    if t = .ofString "?" then
      if !isNullItem s.result && s.kind ≠ some .scalar then
        failWith ("unacceptable node kind for !<?> tag; it should be \"scalar\", not \"" ++
          kindName s.kind ++ "\"")
      match ← firstImplicit s.graph s.result implicitTypes with
      | some ty =>
        let (g, v) := ty.construct s.graph s.result
        modify fun u => { u with graph := g, result := v, tag := some (.ofString ty.tag) }
        if let some a := s.anchor then setAnchor a v
      | none => pure ()
    else if t ≠ .ofString "!" then
      match typeFor s.kind t with
      | none => fail (.ofString "unknown tag !<" ++ t ++ .ofString ">")
      | some ty =>
        if !isNullItem s.result && some ty.kind ≠ s.kind then
          fail (.ofString "unacceptable node kind for !<" ++ t ++ .ofString ("> tag; it should be \"" ++
            ty.kind.name ++ "\", not \"" ++ kindName s.kind ++ "\""))
        checkTextOperation ty s.result
        if !ty.resolve s.graph s.result then
          fail (.ofString "cannot resolve a node with !<" ++ t ++ .ofString "> explicit tag")
        let (g, v) := ty.construct s.graph s.result
        modify fun u => { u with graph := g, result := v }
        if let some a := s.anchor then setAnchor a v

/-- What reading a block mapping found: a mapping, a first key with no colon after it, which
stands as the node read, or nothing at all. -/
inductive MappingRead where
  | mapping
  | loneKey
  | nothing
  deriving DecidableEq

/-- A flow collection under construction in node `node`. -/
structure Flow where
  terminator : Nat
  isMapping : Bool
  node : Nat
  overridable : List Text
  readNext : Bool
  tag0 : Option Text
  anchor0 : Option Text

/-- A block mapping under construction in node `node`: its indentations, the pending key and
value, and where the pending key started. -/
structure Pairing where
  nodeIndent : Int
  flowIndent : Int
  node : Nat
  overridable : List Text
  keyTag : Option Text
  keyNode : Item
  valueNode : Item
  atExplicitKey : Bool
  detected : Bool
  allowCompact : Bool
  keyLine : Nat
  keyLineStart : Nat
  keyPos : Nat
  tag0 : Option Text
  anchor0 : Option Text

/-- Stores the pending key with a value and clears it. -/
def Pairing.store (st : Pairing) (v : Item) : Scan Pairing := do
  let overridable ← storePair st.node st.overridable st.keyTag st.keyNode v st.keyLine
    st.keyLineStart st.keyPos
  return { st with overridable, keyTag := none, keyNode := .null, valueNode := .null }

/-- Skips blanks without noting tabs. -/
def skipInlineBlanks : Nat → Scan Unit
  | 0 => pure ()
  | fuel + 1 => do
    if isWhite (← peek) then
      advance 1
      skipInlineBlanks fuel

mutual

/-- Composes one node at nesting depth `depth`. `parentIndent` is the indentation of the
enclosing node; with `allowToSeek` the node may start after separation space; `allowCompact`
lets a block collection start on the current line. Returns whether anything (a property or
content) was read.

Properties before an implicit key, in block context, belong to the key: when the last of them
shares its line with the content, and that content is no block scalar or flow collection, the
node is read again from the first property as a block mapping that starts there. Only a
mapping found so is kept; errors met on the way stand. -/
def composeNode : Nat → Nat → Int → Context → Bool → Bool → Scan Bool
  | 0, _, _, _, _, _ => outOfFuel
  | fuel + 1, depth, parentIndent, ctx, allowToSeek, allowCompact => do
    if depth > maxDepth then
      failWith ("nesting exceeded maxDepth (" ++ toString maxDepth ++ ")")
    modify fun s => { s with tag := none, anchor := none, kind := none, result := .null }
    let blockish := ctx = .blockOut || ctx = .blockIn
    let mut blockCollections := blockish
    let mut indentStatus : Int := 1
    let mut atNewLine := false
    if allowToSeek then
      if (← skipSeparationSpace true) > 0 then
        atNewLine := true
        indentStatus := indentOrder (← get).lineIndent parentIndent
    let beforeProperties ← get
    let mut brokeLine := false
    if indentStatus = 1 then
      let st ← readProperties parentIndent blockish (← budget)
        ⟨atNewLine, blockCollections, indentStatus, false⟩
      atNewLine := st.atNewLine
      blockCollections := st.blockCollections
      indentStatus := st.indentStatus
      brokeLine := st.brokeLine
    if blockCollections then blockCollections := atNewLine || allowCompact
    let flowIndent := if ctx = .flowIn || ctx = .flowOut then parentIndent else parentIndent + 1
    let afterProperties ← get
    let c ← peek
    let keyProperties := blockish && indentStatus = 1 && !brokeLine &&
      (afterProperties.tag.isSome || afterProperties.anchor.isSome) &&
      c ≠ 0x7C && c ≠ 0x3E && c ≠ 0x5B && c ≠ 0x7B
    let mut asKey := false
    if keyProperties then
      set beforeProperties
      let read ← readBlockMapping fuel depth
        ((beforeProperties.pos : Int) - beforeProperties.lineStart) flowIndent
      asKey := read = .mapping
      if !asKey then set afterProperties
    let mut hasContent := asKey
    if !asKey && (indentStatus = 1 || ctx = .blockOut) then
      let s ← get
      let blockIndent : Int := (s.pos : Int) - s.lineStart
      if indentStatus = 1 then
        let mut got := false
        if blockCollections then
          got ← readBlockSequence fuel depth blockIndent
          if !got then got := (← readBlockMapping fuel depth blockIndent flowIndent) ≠ .nothing
        if !got then got ← readFlowCollection fuel depth flowIndent
        if got then hasContent := true
        else
          let mut scalar := false
          if blockish then scalar ← readBlockScalar flowIndent
          if !scalar then scalar ← readSingleQuotedScalar flowIndent
          if !scalar then scalar ← readDoubleQuotedScalar flowIndent
          if scalar then hasContent := true
          else
            let isAlias ← readAlias
            if isAlias then
              hasContent := true
              let s ← get
              if s.tag.isSome || s.anchor.isSome then
                failWith "alias node should not have any properties"
            else
              let plain ← readPlainScalar flowIndent (ctx = .flowIn)
              if plain then
                hasContent := true
                modify fun s => if s.tag.isNone then { s with tag := some (.ofString "?") } else s
          let s ← get
          if let some a := s.anchor then setAnchor a s.result
      else if indentStatus = 0 then
        if blockCollections then hasContent ← readBlockSequence fuel depth blockIndent
    finishNode
    let s ← get
    return s.tag.isSome || s.anchor.isSome || hasContent

/-- Reads a block sequence whose entries are indented by `nodeIndent`. -/
def readBlockSequence : Nat → Nat → Int → Scan Bool
  | 0, _, _ => outOfFuel
  | fuel + 1, depth, nodeIndent => do
    let s ← get
    if s.firstTab.isSome then return false
    let node ← allocNode (.ofItems [])
    if let some a := s.anchor then setAnchor a (.ref node)
    let detected ← sequenceEntries fuel depth nodeIndent node false
    if detected then
      modify fun t => { t with tag := s.tag, anchor := s.anchor, kind := some .sequence,
                               result := .ref node }
    return detected

/-- The entries `- …` of a block sequence, appended to list `node`. -/
def sequenceEntries : Nat → Nat → Int → Nat → Bool → Scan Bool
  | 0, _, _, _, _ => outOfFuel
  | fuel + 1, depth, nodeIndent, node, detected => do
    let c ← peek
    if c = 0 then return detected
    let s ← get
    if let some t := s.firstTab then
      setPos t
      failWith "tab characters must not be used in indentation"
    if c ≠ 0x2D then return detected
    if !isWsOrEol (← peekAt 1) then return detected
    advance 1
    if (← skipSeparationSpace true) > 0 then
      if (← get).lineIndent ≤ nodeIndent then
        modify fun s => { s with graph := s.graph.push node .null }
        return ← sequenceEntries fuel depth nodeIndent node true
    let line0 := (← get).line
    let _ ← composeNode fuel (depth + 1) nodeIndent .blockIn false true
    modify fun s => { s with graph := s.graph.push node s.result }
    let _ ← skipSeparationSpace true
    let c ← peek
    let s ← get
    if (s.line = line0 || s.lineIndent > nodeIndent) && c ≠ 0 then
      failWith "bad indentation of a sequence entry"
    else if s.lineIndent < nodeIndent then return true
    else sequenceEntries fuel depth nodeIndent node true

/-- Reads a block mapping whose keys are indented by `nodeIndent`. When the first key turns
out not to start a mapping, the key's node is kept as the node read. -/
def readBlockMapping : Nat → Nat → Int → Int → Scan MappingRead
  | 0, _, _, _ => outOfFuel
  | fuel + 1, depth, nodeIndent, flowIndent => do
    let s ← get
    if s.firstTab.isSome then return .nothing
    let node ← allocNode (.mapping [])
    if let some a := s.anchor then setAnchor a (.ref node)
    let st0 : Pairing :=
      { nodeIndent, flowIndent, node, overridable := [], keyTag := none, keyNode := .null,
        valueNode := .null, atExplicitKey := false, detected := false, allowCompact := false,
        keyLine := 0, keyLineStart := 0, keyPos := 0, tag0 := s.tag, anchor0 := s.anchor }
    match ← mappingEntries fuel depth st0 with
    | none => return .loneKey
    | some st =>
      let st ← if st.atExplicitKey then st.store .null else pure st
      if st.detected then
        modify fun t => { t with tag := st.tag0, anchor := st.anchor0, kind := some .mapping,
                                 result := .ref node }
        return .mapping
      return .nothing

/-- The entries of a block mapping: explicit `? key` / `: value` pairs and implicit
`key: value` pairs. `none` means the first key was no key and stands as the node. -/
def mappingEntries : Nat → Nat → Pairing → Scan (Option Pairing)
  | 0, _, _ => outOfFuel
  | fuel + 1, depth, st => do
    let c ← peek
    if c = 0 then return some st
    let s ← get
    if !st.atExplicitKey then
      if let some t := s.firstTab then
        setPos t
        failWith "tab characters must not be used in indentation"
    let following ← peekAt 1
    let line0 := s.line
    let mut st := st
    if (c = 0x3F || c = 0x3A) && isWsOrEol following then
      if c = 0x3F then
        if st.atExplicitKey then st ← st.store .null
        st := { st with detected := true, atExplicitKey := true, allowCompact := true }
      else if st.atExplicitKey then
        st := { st with atExplicitKey := false, allowCompact := true }
      else
        failWith ("incomplete explicit mapping pair; a key node is missed; " ++
          "or followed by a non-tabulated empty line")
      advance 1
    else
      st := { st with keyLine := s.line, keyLineStart := s.lineStart, keyPos := s.pos }
      let isKey ← composeNode fuel (depth + 1) st.flowIndent .flowOut false true
      if !isKey then return some st
      if (← get).line = line0 then
        skipInlineBlanks (← budget)
        if (← peek) = 0x3A then
          advance 1
          if !isWsOrEol (← peek) then
            failWith ("a whitespace character is expected after the key-value separator " ++
              "within a block mapping")
          if st.atExplicitKey then st ← st.store .null
          let s ← get
          st := { st with detected := true, atExplicitKey := false, allowCompact := false,
                          keyTag := s.tag, keyNode := s.result }
        else if st.detected then
          failWith "can not read an implicit mapping pair; a colon is missed"
        else
          modify fun t => { t with tag := st.tag0, anchor := st.anchor0 }
          return none
      else if st.detected then
        failWith "can not read a block mapping entry; a multiline key may not be an implicit key"
      else
        modify fun t => { t with tag := st.tag0, anchor := st.anchor0 }
        return none
    let s ← get
    if s.line = line0 || s.lineIndent > st.nodeIndent then
      if st.atExplicitKey then
        st := { st with keyLine := s.line, keyLineStart := s.lineStart, keyPos := s.pos }
      let isNode ← composeNode fuel (depth + 1) st.nodeIndent .blockOut true st.allowCompact
      if isNode then
        let r := (← get).result
        st := if st.atExplicitKey then { st with keyNode := r } else { st with valueNode := r }
      if !st.atExplicitKey then st ← st.store st.valueNode
      let _ ← skipSeparationSpace true
    let c ← peek
    let s ← get
    if (s.line = line0 || s.lineIndent > st.nodeIndent) && c ≠ 0 then
      failWith "bad indentation of a mapping entry"
    else if s.lineIndent < st.nodeIndent then return some st
    else mappingEntries fuel depth st

/-- Reads a flow sequence `[…]` or flow mapping `{…}`. -/
def readFlowCollection : Nat → Nat → Int → Scan Bool
  | 0, _, _ => outOfFuel
  | fuel + 1, depth, nodeIndent => do
    let c ← peek
    if c ≠ 0x5B && c ≠ 0x7B then return false
    let isMapping := c = 0x7B
    let s ← get
    let node ← allocNode (if isMapping then .mapping [] else .ofItems [])
    if let some a := s.anchor then setAnchor a (.ref node)
    advance 1
    flowEntries fuel depth nodeIndent
      { terminator := (if isMapping then 0x7D else 0x5D), isMapping, node, overridable := [],
        readNext := true, tag0 := s.tag, anchor0 := s.anchor }

/-- The entries of a flow collection, separated by commas; an entry of a flow sequence may be
a single pair `key: value`, which becomes a one-key mapping. -/
def flowEntries : Nat → Nat → Int → Flow → Scan Bool
  | 0, _, _, _ => failWith "unexpected end of the stream within a flow collection"
  | fuel + 1, depth, nodeIndent, st => do
    if (← peek) = 0 then failWith "unexpected end of the stream within a flow collection"
    let _ ← skipSeparationSpace true
    let c ← peek
    if c = st.terminator then
      advance 1
      let kind : NodeKind := if st.isMapping then .mapping else .sequence
      modify fun t => { t with tag := st.tag0, anchor := st.anchor0, kind := some kind,
                               result := .ref st.node }
      return true
    if !st.readNext then failWith "missed comma between flow collection entries"
    if c = 0x2C then failWith "expected the node content, but found ','"
    let mut isPair := false
    let mut isExplicitPair := false
    if c = 0x3F then
      if isWsOrEol (← peekAt 1) then
        isPair := true
        isExplicitPair := true
        advance 1
        let _ ← skipSeparationSpace true
    let s ← get
    let line0 := s.line
    let lineStart0 := s.lineStart
    let pos0 := s.pos
    let _ ← composeNode fuel (depth + 1) nodeIndent .flowIn false true
    let s ← get
    let keyTag := s.tag
    let keyNode := s.result
    let _ ← skipSeparationSpace true
    let mut valueNode : Item := .null
    let sameLine := (← get).line = line0
    if (isExplicitPair || sameLine) && (← peek) = 0x3A then
      isPair := true
      advance 1
      let _ ← skipSeparationSpace true
      let _ ← composeNode fuel (depth + 1) nodeIndent .flowIn false true
      valueNode := (← get).result
    let mut st := st
    if st.isMapping then
      let o ← storePair st.node st.overridable keyTag keyNode valueNode line0 lineStart0 pos0
      st := { st with overridable := o }
    else if isPair then
      let pair ← allocNode (.mapping [])
      let o ← storePair pair st.overridable keyTag keyNode valueNode line0 lineStart0 pos0
      modify fun s => { s with graph := s.graph.push st.node (.ref pair) }
      st := { st with overridable := o }
    else modify fun s => { s with graph := s.graph.push st.node keyNode }
    let _ ← skipSeparationSpace true
    if (← peek) = 0x2C then
      advance 1
      st := { st with readNext := true }
    else st := { st with readNext := false }
    flowEntries fuel depth nodeIndent st

end

end Yaml

end Transcode
