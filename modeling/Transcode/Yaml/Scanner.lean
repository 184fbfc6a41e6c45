import Transcode.Yaml.Mark
import Transcode.Yaml.Schema
import Transcode.Yaml.Tag

/-!
# The YAML scanner state and its character-level readers

The reader works on the input as UTF-16 units followed by an end marker `0`, with a cursor that
knows its offset, line, the start of that line, the indentation of the line and the first tab
met in the line's leading blanks. The node being composed is described by its tag, anchor,
kind and item, which the readers below fill in; collections are nodes of the document's object
graph, kept in the state with it, and anchors map names to items.

Here are the readers that do not compose nodes: line breaks and separation space (blanks,
comments, line breaks, counting indentation), document markers, plain scalars (folded across
lines while the indentation allows), single- and double-quoted scalars (with escapes), block
scalars (literal `|` or folded `>`, with chomping and indentation indicators), and the node
properties: tags, anchors and aliases. Every loop advances the cursor at least one unit per
round, so the length of the input bounds its rounds.
-/

namespace Transcode

namespace Yaml

/-- The code of a position past the end marker: no unit has it. -/
def noChar : Nat := 0x110000

def isEol (c : Nat) : Bool := c = 0x0A || c = 0x0D
def isWhite (c : Nat) : Bool := c = 0x09 || c = 0x20
def isWsOrEol (c : Nat) : Bool := isWhite c || isEol c
def isFlowIndicator (c : Nat) : Bool := c = 0x2C || c = 0x5B || c = 0x5D || c = 0x7B || c = 0x7D

/-- The reader's state. `tag`, `anchor`, `kind` and `result` describe the node being composed;
a tag `?` marks a plain scalar still to be resolved, `!` one that stays a string. `graph` holds
the collections read so far, and `mergedKeys` counts the keys merge keys have copied. -/
structure Scanner where
  input : Array UInt16
  length : Nat
  pos : Nat
  line : Nat
  lineStart : Nat
  lineIndent : Int
  firstTab : Option Nat
  tag : Option Text
  anchor : Option Text
  kind : Option NodeKind
  result : Graph.Item
  graph : Graph
  anchors : List (Text × Graph.Item)
  mergedKeys : Nat
  tagMap : List (Text × Text)
  version : Option Text
  documents : Array Graph.Item

/-- A scanner at the start of an input that ends with the end marker. -/
def Scanner.start (input : Array UInt16) (length : Nat) : Scanner :=
  { input, length, pos := 0, line := 0, lineStart := 0, lineIndent := 0, firstTab := none,
    tag := none, anchor := none, kind := none, result := .null, graph := .empty, anchors := [],
    mergedKeys := 0, tagMap := [], version := none, documents := #[] }

/-- The unit at an offset, or `noChar` past the end. -/
def Scanner.code (s : Scanner) (i : Nat) : Nat :=
  match s.input[i]? with
  | some u => u.toNat
  | none => noChar

/-- The mark of the cursor. -/
def Scanner.mark (s : Scanner) : Mark :=
  { buffer := s.input.pop, position := s.pos, line := s.line,
    column := (s.pos : Int) - s.lineStart }

/-- Reading YAML: state, and failure with a marked error. -/
abbrev Scan := StateT Scanner (Except Error)

namespace Scan

def peek : Scan Nat := do let s ← get; return s.code s.pos
def peekAt (k : Nat) : Scan Nat := do let s ← get; return s.code (s.pos + k)
def advance (k : Nat) : Scan Unit := modify fun s => { s with pos := s.pos + k }
def setPos (p : Nat) : Scan Unit := modify fun s => { s with pos := p }

/-- Fails with a reason, marked at the cursor. -/
def fail (reason : Text) : Scan α := do
  let s ← get
  throw (.invalid reason (some s.mark))

/-- Fails with a reason given as a string. -/
def failWith (reason : String) : Scan α := fail (.ofString reason)

/-- The units in `[a, b)`. -/
def slice (a b : Nat) : Scan Text := do return ⟨((← get).input.extract a b).toList⟩

/-- A bound on the rounds of any loop over the input. -/
def budget : Scan Nat := do return (← get).input.size + 1

/-- Binds an anchor name to an item (replacing an earlier binding). -/
def setAnchor (name : Text) (v : Graph.Item) : Scan Unit :=
  modify fun s => { s with anchors := Graph.setField s.anchors name v }

end Scan

open Scan

/-- Reads one line break (`\n`, `\r` or `\r\n`) and starts the next line. -/
def readLineBreak : Scan Unit := do
  let c ← peek
  if c = 0x0A then advance 1
  else if c = 0x0D then
    advance 1
    if (← peek) = 0x0A then advance 1
  else failWith "a line break is expected"
  modify fun s => { s with line := s.line + 1, lineStart := s.pos, firstTab := none }

/-- Skips blanks, remembering the first tab of the line. -/
def skipBlanks : Nat → Scan Unit
  | 0 => pure ()
  | fuel + 1 => do
    let c ← peek
    if isWhite c then
      if c = 0x09 then
        modify fun s => if s.firstTab.isNone then { s with firstTab := some s.pos } else s
      advance 1
      skipBlanks fuel

/-- Moves past the current unit and on to the next line break or the end. -/
def skipComment : Nat → Scan Unit
  | 0 => pure ()
  | fuel + 1 => do
    advance 1
    let c ← peek
    if isEol c || c = 0 then pure () else skipComment fuel

/-- Counts the spaces at the cursor into the line indentation. -/
def countIndent : Nat → Scan Unit
  | 0 => pure ()
  | fuel + 1 => do
    if (← peek) = 0x20 then
      modify fun s => { s with lineIndent := s.lineIndent + 1, pos := s.pos + 1 }
      countIndent fuel

/-- Skips separation space: blanks, comments (when allowed) and line breaks, measuring the
indentation of each new line. Returns the number of line breaks crossed. -/
def skipSeparationSpace (allowComments : Bool) : Scan Nat := do
  go (← budget) 0
where
  go : Nat → Nat → Scan Nat
    | 0, breaks => pure breaks
    | fuel + 1, breaks => do
      if (← peek) = 0 then return breaks
      skipBlanks (← budget)
      if allowComments && (← peek) = 0x23 then skipComment (← budget)
      if isEol (← peek) then
        readLineBreak
        modify fun s => { s with lineIndent := 0 }
        countIndent (← budget)
        go fuel (breaks + 1)
      else return breaks

/-- Whether the cursor is at `---` or `...` followed by a blank, a line break or the end. -/
def atDocumentSeparator : Scan Bool := do
  let c ← peek
  if (c = 0x2D || c = 0x2E) && c = (← peekAt 1) && c = (← peekAt 2) then
    let d ← peekAt 3
    return d = 0 || isWsOrEol d
  else return false

/-- Whether the cursor is at the start of its line and at a document marker. -/
def atLineStartSeparator : Scan Bool := do
  let s ← get
  if s.pos = s.lineStart then atDocumentSeparator else return false

/-- Units no scalar may hold: C0 and C1 controls other than tab and line breaks, `FFFE`,
`FFFF`, and lone surrogates. -/
def isNonPrintable (t : Text) : Bool :=
  t.units.any (fun u =>
    u ≤ 0x08 || u = 0x0B || u = 0x0C || (0x0E ≤ u && u ≤ 0x1F) || (0x7F ≤ u && u ≤ 0x84) ||
    (0x86 ≤ u && u ≤ 0x9F) || u = 0xFFFE || u = 0xFFFF) || t.loneCount > 0

/-- Appends the input in `[a, b)` to a scalar, checking its characters: a quoted scalar takes
tab and everything from space up, other scalars refuse the non-printable units. -/
def captureSegment (acc : Array UInt16) (a b : Nat) (quoted : Bool) : Scan (Array UInt16) := do
  if a < b then
    let seg ← slice a b
    if quoted then
      if seg.units.any fun u => !(u = 9 || 0x20 ≤ u) then failWith "expected valid JSON character"
    else if isNonPrintable seg then failWith "the stream contains non-printable characters"
    return acc ++ seg.units.toArray
  else return acc

/-- Folding of line breaks inside a flow scalar: one break is a space, `n > 1` breaks are
`n - 1` line feeds. -/
def writeFoldedLines (acc : Array UInt16) (count : Nat) : Array UInt16 :=
  if count = 1 then acc.push 0x20
  else if count > 1 then acc ++ (List.replicate (count - 1) (0x0A : UInt16)).toArray
  else acc

/-- Sets the node to a scalar with the given text. -/
def setScalar (acc : Array UInt16) : Scan Unit :=
  modify fun s => { s with kind := some .scalar, result := .text ⟨acc.toList⟩ }

/-! ## Plain scalars -/

/-- The loop of a plain scalar: where the current capture starts and ends, whether a line
break is pending, the line state before it, and the text so far. -/
structure Plain where
  captureStart : Nat
  captureEnd : Nat
  pending : Bool
  lineBefore : Nat
  acc : Array UInt16

/-- Reads on until a `: `, a ` #`, a document marker, a flow indicator inside a flow
collection, or a line less indented than the node. -/
def plainLoop (nodeIndent : Int) (inFlow : Bool) : Nat → Plain → Scan Plain
  | 0, st => pure st
  | fuel + 1, st => do
    let c ← peek
    if c = 0 then return st
    if c = 0x3A then
      let f ← peekAt 1
      if isWsOrEol f || (inFlow && isFlowIndicator f) then return st
    else if c = 0x23 then
      let s ← get
      let before := if s.pos = 0 then noChar else s.code (s.pos - 1)
      if isWsOrEol before then return st
    else if (← atLineStartSeparator) || (inFlow && isFlowIndicator c) then return st
    else if isEol c then
      let s ← get
      let _ ← skipSeparationSpace false
      let s' ← get
      if s'.lineIndent ≥ nodeIndent then
        return ← plainLoop nodeIndent inFlow fuel { st with pending := true, lineBefore := s.line }
      else
        set { s' with pos := st.captureEnd, line := s.line, lineStart := s.lineStart,
                      lineIndent := s.lineIndent }
        return st
    let st ← if st.pending then do
        let acc ← captureSegment st.acc st.captureStart st.captureEnd false
        let s ← get
        pure { st with acc := writeFoldedLines acc (s.line - st.lineBefore),
                       captureStart := s.pos, captureEnd := s.pos, pending := false }
      else pure st
    let p := (← get).pos
    let st := if isWhite c then st else { st with captureEnd := p + 1 }
    advance 1
    plainLoop nodeIndent inFlow fuel st

/-- Reads a plain scalar; `false`, with nothing changed, when none starts here. -/
def readPlainScalar (nodeIndent : Int) (inFlow : Bool) : Scan Bool := do
  let c ← peek
  if isWsOrEol c || isFlowIndicator c ||
      [0x23, 0x26, 0x2A, 0x21, 0x7C, 0x3E, 0x27, 0x22, 0x25, 0x40, 0x60].contains c then
    return false
  if c = 0x3F || c = 0x2D then
    let f ← peekAt 1
    if isWsOrEol f || (inFlow && isFlowIndicator f) then return false
  let s ← get
  let st ← plainLoop nodeIndent inFlow (← budget) ⟨s.pos, s.pos, false, s.line, #[]⟩
  let acc ← captureSegment st.acc st.captureStart st.captureEnd false
  if acc.isEmpty then return false
  setScalar acc
  return true

/-! ## Quoted scalars -/

/-- The loop of a single-quoted scalar. The units from `a` to `b` are the pending segment:
`b` stops after the last unit that is not a blank, so blanks before a line break are dropped,
while the closing quote takes the segment up to itself, blanks included. -/
def singleLoop (nodeIndent : Int) : Nat → Nat → Nat → Array UInt16 → Scan (Array UInt16)
  | 0, _, _, _ => failWith "unexpected end of the stream within a single quoted scalar"
  | fuel + 1, a, b, acc => do
    let c ← peek
    if c = 0 then failWith "unexpected end of the stream within a single quoted scalar"
    if c = 0x27 then
      let acc ← captureSegment acc a (← get).pos true
      advance 1
      if (← peek) = 0x27 then
        let a := (← get).pos
        advance 1
        singleLoop nodeIndent fuel a (← get).pos acc
      else return acc
    else if isEol c then
      let acc ← captureSegment acc a b true
      let n ← skipSeparationSpace false
      let p := (← get).pos
      singleLoop nodeIndent fuel p p (writeFoldedLines acc n)
    else if (← atLineStartSeparator) then
      failWith "unexpected end of the document within a single quoted scalar"
    else
      advance 1
      let p := (← get).pos
      singleLoop nodeIndent fuel a (if isWhite c then b else p) acc

/-- Reads a single-quoted scalar, where `''` stands for one quote. -/
def readSingleQuotedScalar (nodeIndent : Int) : Scan Bool := do
  if (← peek) ≠ 0x27 then return false
  modify fun s => { s with kind := some .scalar, result := .text .empty }
  advance 1
  let p := (← get).pos
  let acc ← singleLoop nodeIndent (← budget) p p #[]
  setScalar acc
  return true

/-- The unit of a one-character escape `\c`, if `c` is one. -/
def simpleEscape (c : Nat) : Option UInt16 :=
  match c with
  | 0x30 => some 0x00 | 0x61 => some 0x07 | 0x62 => some 0x08 | 0x74 => some 0x09
  | 0x09 => some 0x09 | 0x6E => some 0x0A | 0x76 => some 0x0B | 0x66 => some 0x0C
  | 0x72 => some 0x0D | 0x65 => some 0x1B | 0x20 => some 0x20 | 0x22 => some 0x22
  | 0x2F => some 0x2F | 0x5C => some 0x5C | 0x4E => some 0x85 | 0x5F => some 0xA0
  | 0x4C => some 0x2028 | 0x50 => some 0x2029
  | _ => none

/-- How many hex digits follow an escape letter: `x` two, `u` four, `U` eight. -/
def escapedHexLength (c : Nat) : Nat :=
  if c = 0x78 then 2 else if c = 0x75 then 4 else if c = 0x55 then 8 else 0

/-- A 32-bit two's-complement wrap. -/
def wrap32 (i : Int) : Int := Int.bmod i (Nat.pow 2 32)

/-- The units of a code point given by an escape. Digits are gathered in a 32-bit register,
so eight digits may wrap; a value up to `FFFF` is one unit (taken modulo `2 ^ 16`), a larger
one is written as a surrogate pair. -/
def escapedUnits (c : Int) : List UInt16 :=
  let unit (i : Int) : UInt16 := (i % 65536).toNat.toUInt16
  if c ≤ 0xFFFF then [unit c]
  else [unit ((c - 0x10000) / 1024 + 0xD800), unit ((c - 0x10000) % 1024 + 0xDC00)]

/-- Reads `n` hex digits after the cursor into the register. -/
def readHexDigits : Nat → Int → Scan Int
  | 0, v => pure v
  | n + 1, v => do
    advance 1
    let c ← peek
    let digit := if c < 0x10000 then hexUnit c.toUInt16 else none
    match digit with
    | some d => readHexDigits n (wrap32 (v * 16) + d)
    | none => failWith "expected hexadecimal character"

/-- The loop of a double-quoted scalar. As in `singleLoop`, blanks before a line break are
dropped; an escape ends the pending segment, so the blank it denotes stays. -/
def doubleLoop (nodeIndent : Int) : Nat → Nat → Nat → Array UInt16 → Scan (Array UInt16)
  | 0, _, _, _ => failWith "unexpected end of the stream within a double quoted scalar"
  | fuel + 1, a, b, acc => do
    let c ← peek
    if c = 0 then failWith "unexpected end of the stream within a double quoted scalar"
    if c = 0x22 then
      let acc ← captureSegment acc a (← get).pos true
      advance 1
      return acc
    else if c = 0x5C then
      let acc ← captureSegment acc a (← get).pos true
      advance 1
      let e ← peek
      let acc ← if isEol e then do
          let _ ← skipSeparationSpace false
          pure acc
        else match simpleEscape e with
          | some u => do advance 1; pure (acc.push u)
          | none =>
            let n := escapedHexLength e
            if n > 0 then do
              let v ← readHexDigits n 0
              advance 1
              pure (acc ++ (escapedUnits v).toArray)
            else failWith "unknown escape sequence"
      let p := (← get).pos
      doubleLoop nodeIndent fuel p p acc
    else if isEol c then
      let acc ← captureSegment acc a b true
      let n ← skipSeparationSpace false
      let p := (← get).pos
      doubleLoop nodeIndent fuel p p (writeFoldedLines acc n)
    else if (← atLineStartSeparator) then
      failWith "unexpected end of the document within a double quoted scalar"
    else
      advance 1
      let p := (← get).pos
      doubleLoop nodeIndent fuel a (if isWhite c then b else p) acc

/-- Reads a double-quoted scalar with its escapes. -/
def readDoubleQuotedScalar (nodeIndent : Int) : Scan Bool := do
  if (← peek) ≠ 0x22 then return false
  modify fun s => { s with kind := some .scalar, result := .text .empty }
  advance 1
  let p := (← get).pos
  let acc ← doubleLoop nodeIndent (← budget) p p #[]
  setScalar acc
  return true

/-! ## Block scalars -/

/-- What happens to the line breaks at the end of a block scalar. -/
inductive Chomping where
  | clip
  | strip
  | keep
  deriving DecidableEq

/-- The header of a block scalar: chomping and indentation indicators, in either order. -/
structure BlockHeader where
  chomping : Chomping
  indent : Option Nat

/-- Reads the indicators after `|` or `>`. -/
def readBlockHeader : Nat → BlockHeader → Scan BlockHeader
  | 0, h => pure h
  | fuel + 1, h => do
    advance 1
    let c ← peek
    if c = 0x2B || c = 0x2D then
      if h.chomping = .clip then
        readBlockHeader fuel { h with chomping := if c = 0x2B then .keep else .strip }
      else failWith "repeat of a chomping mode identifier"
    else if 0x30 ≤ c && c ≤ 0x39 then
      if c = 0x30 then
        failWith "bad explicit indentation width of a block scalar; it cannot be less than one"
      else if h.indent.isNone then readBlockHeader fuel { h with indent := some (c - 0x30) }
      else failWith "repeat of an indentation width identifier"
    else return h

/-- The running state of a block scalar's lines. -/
structure Block where
  textIndent : Int
  detected : Bool
  didReadContent : Bool
  emptyLines : Nat
  atMoreIndented : Bool
  acc : Array UInt16

/-- `n` line feeds. -/
def feeds (n : Nat) : Array UInt16 := (List.replicate n (0x0A : UInt16)).toArray

/-- Moves the cursor to the next line break or the end. -/
def toLineEnd : Nat → Scan Unit
  | 0 => pure ()
  | fuel + 1 => do
    let c ← peek
    if isEol c || c = 0 then pure () else do advance 1; toLineEnd fuel

/-- Counts the indentation of a block scalar line, up to the text indentation once known. -/
def blockIndentation (st : Block) : Nat → Scan Unit
  | 0 => pure ()
  | fuel + 1 => do
    let s ← get
    if (!st.detected || s.lineIndent < st.textIndent) && (← peek) = 0x20 then
      modify fun s => { s with lineIndent := s.lineIndent + 1, pos := s.pos + 1 }
      blockIndentation st fuel

/-- The lines of a block scalar, until a line less indented than its text. Text at the left
margin, or the end of the input, while no indentation is known is an error: a block scalar's
text must be indented. -/
def blockLines (folding : Bool) (chomping : Chomping) : Nat → Block → Scan Block
  | 0, st => pure st
  | fuel + 1, st => do
    if (← peek) = 0 then return st
    readLineBreak
    modify fun s => { s with lineIndent := 0 }
    blockIndentation st (← budget)
    let s ← get
    let st := if !st.detected && s.lineIndent > st.textIndent then
        { st with textIndent := s.lineIndent } else st
    let c ← peek
    if !st.detected && st.textIndent = 0 && !isEol c then
      failWith "missing indentation for block scalar"
    if isEol c then return ← blockLines folding chomping fuel { st with emptyLines := st.emptyLines + 1 }
    if s.lineIndent < st.textIndent then
      let acc := match chomping with
        | .keep => st.acc ++ feeds (if st.didReadContent then 1 + st.emptyLines else st.emptyLines)
        | .clip => if st.didReadContent then st.acc.push 0x0A else st.acc
        | .strip => st.acc
      return { st with acc }
    let st :=
      if folding then
        if isWhite c then
          { st with atMoreIndented := true,
                    acc := st.acc ++ feeds (if st.didReadContent then 1 + st.emptyLines else st.emptyLines) }
        else if st.atMoreIndented then
          { st with atMoreIndented := false, acc := st.acc ++ feeds (st.emptyLines + 1) }
        else if st.emptyLines = 0 then
          (if st.didReadContent then { st with acc := st.acc.push 0x20 } else st)
        else { st with acc := st.acc ++ feeds st.emptyLines }
      else
        { st with acc := st.acc ++ feeds (if st.didReadContent then 1 + st.emptyLines else st.emptyLines) }
    let st := { st with didReadContent := true, detected := true, emptyLines := 0 }
    let lineStart := (← get).pos
    toLineEnd (← budget)
    let acc ← captureSegment st.acc lineStart (← get).pos false
    blockLines folding chomping fuel { st with acc }

/-- Reads a literal (`|`) or folded (`>`) block scalar. -/
def readBlockScalar (nodeIndent : Int) : Scan Bool := do
  let c ← peek
  let folding ← if c = 0x7C then pure false else if c = 0x3E then pure true else return false
  modify fun s => { s with kind := some .scalar, result := .text .empty }
  let h ← readBlockHeader (← budget) ⟨.clip, none⟩
  if isWhite (← peek) then
    skipBlanks (← budget)
    if (← peek) = 0x23 then skipComment (← budget)
  let textIndent := match h.indent with
    | some k => nodeIndent + k - 1
    | none => nodeIndent
  let st ← blockLines folding h.chomping (← budget)
    ⟨textIndent, h.indent.isSome, false, 0, false, #[]⟩
  setScalar st.acc
  return true

/-! ## Properties and aliases -/

/-- The units up to a blank, a line break, the end or (when `stopAtFlow`) a flow indicator. -/
def scanName (stopAtFlow : Bool) : Nat → Scan Unit
  | 0 => pure ()
  | fuel + 1 => do
    let c ← peek
    if c = 0 || isWsOrEol c || (stopAtFlow && isFlowIndicator c) then pure ()
    else do advance 1; scanName stopAtFlow fuel

/-- Reads a verbatim tag `!<…>`: the units up to `>`, skipping the first one. -/
def scanVerbatim : Nat → Scan Unit
  | 0 => pure ()
  | fuel + 1 => do
    advance 1
    let c ← peek
    if c = 0 || c = 0x3E then pure () else scanVerbatim fuel

/-- Reads the suffix of a tag, splitting off a named handle `!name!` when one occurs. -/
def scanTagSuffix (start : Nat) (handle : Text) (named : Bool) :
    Nat → Scan (Nat × Text × Bool)
  | 0 => pure (start, handle, named)
  | fuel + 1 => do
    let c ← peek
    if c = 0 || isWsOrEol c then return (start, handle, named)
    if c = 0x21 then
      if !named then
        let s ← get
        let h ← slice (start - 1) (s.pos + 1)
        if !isTagHandle h then failWith "named tag handle cannot contain such characters"
        advance 1
        scanTagSuffix (s.pos + 1) h true fuel
      else failWith "tag suffix cannot contain exclamation marks"
    else
      advance 1
      scanTagSuffix start handle named fuel

/-- Reads a tag property `!…`, resolving its handle; a node has one tag. -/
def readTagProperty : Scan Bool := do
  if (← peek) ≠ 0x21 then return false
  if (← get).tag.isSome then failWith "duplication of a tag property"
  advance 1
  let c ← peek
  let (verbatim, named, handle) :=
    if c = 0x3C then (true, false, "")
    else if c = 0x21 then (false, true, "!!")
    else (false, false, "!")
  if verbatim || named then advance 1
  let start := (← get).pos
  let (name, handle) ← if verbatim then do
      scanVerbatim (← budget)
      let s ← get
      if s.pos < s.length then
        let name ← slice start s.pos
        advance 1
        pure (name, Text.ofString handle)
      else failWith "unexpected end of the stream within a verbatim tag"
    else do
      let (start, h, _) ← scanTagSuffix start (.ofString handle) named (← budget)
      let name ← slice start (← get).pos
      if name.units.any isFlowIndicatorUnit then
        failWith "tag suffix cannot contain flow indicator characters"
      pure (name, h)
  if !name.units.isEmpty && !isTagUri name then
    fail (.ofString "tag name cannot contain such characters: " ++ name)
  let decoded ← match percentDecode name.units with
    | some u => pure (⟨u⟩ : Text)
    | none => fail (.ofString "tag name is malformed: " ++ name)
  let s ← get
  let tag ←
    if verbatim then pure decoded
    else match (s.tagMap.find? (·.1 = handle)).map (·.2) with
      | some pfx => pure (pfx ++ decoded)
      | none =>
        if handle = .ofString "!" then pure (.ofString "!" ++ decoded)
        else if handle = .ofString "!!" then pure (.ofString "tag:yaml.org,2002:" ++ decoded)
        else fail (.ofString "undeclared tag handle \"" ++ handle ++ .ofString "\"")
  modify fun s => { s with tag := some tag }
  return true

/-- Reads an anchor property `&name`; a node has one anchor. -/
def readAnchorProperty : Scan Bool := do
  if (← peek) ≠ 0x26 then return false
  if (← get).anchor.isSome then failWith "duplication of an anchor property"
  advance 1
  let start := (← get).pos
  scanName true (← budget)
  let p := (← get).pos
  if p = start then failWith "name of an anchor node must contain at least one character"
  let name ← slice start p
  modify fun s => { s with anchor := some name }
  return true

/-- Reads an alias `*name`: the node is the anchored item. -/
def readAlias : Scan Bool := do
  if (← peek) ≠ 0x2A then return false
  advance 1
  let start := (← get).pos
  scanName true (← budget)
  let p := (← get).pos
  if p = start then failWith "name of an alias node must contain at least one character"
  let name ← slice start p
  match Graph.lookup (← get).anchors name with
  | some v => modify fun s => { s with result := v }
  | none => fail (.ofString "unidentified alias \"" ++ name ++ .ofString "\"")
  let _ ← skipSeparationSpace true
  return true

end Yaml

end Transcode
