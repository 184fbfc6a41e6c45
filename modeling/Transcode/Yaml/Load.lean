import Transcode.Yaml.Compose

/-!
# Loading a YAML stream

A stream is read document by document. A document may start with directives (`%YAML 1.x`,
`%TAG !handle! prefix`), which must then be closed by `---`; its node is composed at the
top level, and it ends at `...`, at the next `---`, or at the end of the stream. Anything else
after a node is an error.

The input is prepared first: a line feed is added when it does not end with a line break, a
leading byte order mark is dropped, and a `0` unit is refused (the reader uses `0` to mark the
end). Loading a stream gives nothing for no document, a single document as its object graph
and root item, and an error for more than one.
-/

namespace Transcode

namespace Yaml

open Scan

/-- The units up to a blank, a line break or the end. -/
def directiveWord : Nat → Scan Unit
  | 0 => pure ()
  | fuel + 1 => do
    let c ← peek
    if c = 0 || isWsOrEol c then pure () else do advance 1; directiveWord fuel

/-- The arguments of a directive, up to a comment, a line break or the end. -/
def directiveArgs : Nat → Array Text → Scan (Array Text)
  | 0, args => pure args
  | fuel + 1, args => do
    if (← peek) = 0 then return args
    skipInlineBlanks (← budget)
    let c ← peek
    if c = 0x23 then
      skipComment (← budget)
      return args
    if isEol c then return args
    let start := (← get).pos
    directiveWord (← budget)
    let arg ← slice start (← get).pos
    directiveArgs fuel (args.push arg)

/-- `major.minor`, both decimal digits. -/
def versionNumbers (t : Text) : Option (Nat × Nat) :=
  let isDigit (u : UInt16) : Bool := 0x30 ≤ u && u ≤ 0x39
  let value (us : List UInt16) : Nat := us.foldl (fun a u => a * 10 + (u.toNat - 0x30)) 0
  match t.units.splitOn 0x2E with
  | [a, b] => if !a.isEmpty && !b.isEmpty && a.all isDigit && b.all isDigit
      then some (value a, value b) else none
  | _ => none

/-- The `%YAML` directive: one version argument with major version 1, at most once. -/
def yamlDirective (args : Array Text) : Scan Unit := do
  if (← get).version.isSome then failWith "duplication of %YAML directive"
  if args.size ≠ 1 then failWith "YAML directive accepts exactly one argument"
  match versionNumbers args[0]! with
  | none => failWith "ill-formed argument of the YAML directive"
  | some (major, _) =>
    if major ≠ 1 then failWith "unacceptable YAML version of the document"
    modify fun s => { s with version := some args[0]! }

/-- The `%TAG` directive: a new handle and its prefix. -/
def tagDirective (args : Array Text) : Scan Unit := do
  if args.size ≠ 2 then failWith "TAG directive accepts exactly two arguments"
  let handle := args[0]!
  let pfx := args[1]!
  if !isTagHandle handle then
    failWith "ill-formed tag handle (first argument) of the TAG directive"
  if (← get).tagMap.any (·.1 = handle) then
    fail (.ofString "there is a previously declared suffix for \"" ++ handle ++
      .ofString "\" tag handle")
  if !isTagUri pfx then
    failWith "ill-formed tag prefix (second argument) of the TAG directive"
  match percentDecode pfx.units with
  | some u => modify fun s => { s with tagMap := s.tagMap ++ [(handle, ⟨u⟩)] }
  | none => fail (.ofString "tag prefix is malformed: " ++ pfx)

/-- Reads the directives at the start of a document; returns whether there were any. -/
def readDirectives : Nat → Bool → Scan Bool
  | 0, found => pure found
  | fuel + 1, found => do
    if (← peek) = 0 then return found
    let _ ← skipSeparationSpace true
    let s ← get
    if s.lineIndent > 0 || (← peek) ≠ 0x25 then return found
    advance 1
    let start := (← get).pos
    directiveWord (← budget)
    let name ← slice start (← get).pos
    if name.units.isEmpty then
      failWith "directive name must not be less than one character in length"
    let args ← directiveArgs (← budget) #[]
    if (← peek) ≠ 0 then readLineBreak
    if name = .ofString "YAML" then yamlDirective args
    else if name = .ofString "TAG" then tagDirective args
    readDirectives fuel true

/-- Reads one document and appends its root. -/
def readDocument (fuel : Nat) : Scan Unit := do
  modify fun s => { s with version := none, tagMap := [], anchors := [] }
  let hasDirectives ← readDirectives (← budget) false
  let _ ← skipSeparationSpace true
  let s ← get
  if s.lineIndent = 0 && (← peek) = 0x2D && (← peekAt 1) = 0x2D && (← peekAt 2) = 0x2D then
    advance 3
    let _ ← skipSeparationSpace true
  else if hasDirectives then failWith "directives end mark is expected"
  let _ ← composeNode fuel 1 ((← get).lineIndent - 1) .blockOut false true
  let _ ← skipSeparationSpace true
  modify fun s => { s with documents := s.documents.push s.result }
  if (← atLineStartSeparator) then
    if (← peek) = 0x2E then
      advance 3
      let _ ← skipSeparationSpace true
    return
  let s ← get
  if (s.pos : Int) < (s.length : Int) - 1 then
    failWith "end of the stream or a document separator is expected"

/-- Reads documents until the end of the stream. -/
def readDocuments (fuel : Nat) : Nat → Scan Unit
  | 0 => pure ()
  | rounds + 1 => do
    let s ← get
    if (s.pos : Int) < (s.length : Int) - 1 then
      readDocument fuel
      readDocuments fuel rounds

/-- The units of a stream as the reader takes them: a line feed added when the stream does
not end with a line break, and a leading byte order mark removed. -/
def prepare (us : List UInt16) : List UInt16 :=
  let us := match us.getLast? with
    | some u => if u = 0x0A || u = 0x0D then us else us ++ [0x0A]
    | none => us
  match us with
  | 0xFEFF :: rest => rest
  | _ => us

/-- The roots of all documents of a stream, with the graph that holds their nodes. -/
def loadAll (t : Text) : Except Error (Graph × List Graph.Item) := do
  let us := prepare t.units
  match us.idxOf? 0 with
  | some p =>
    throw (.invalid (.ofString "null byte is not allowed in input")
      (some { buffer := us.dropLast.toArray, position := p, line := 0, column := p }))
  | none =>
    let input := (us ++ [0]).toArray
    let fuel := 8 * input.size + 64
    let run : Scan Unit := do
      countIndent (← budget)
      readDocuments fuel (input.size + 1)
    let (_, s) ← run.run (Scanner.start input us.length)
    return (s.graph, s.documents.toList)

/-- The document of a stream with at most one: `none` when it has none. -/
def load (t : Text) : Except Error (Option Document) := do
  match ← loadAll t with
  | (_, []) => return none
  | (graph, [root]) => return some { graph, root }
  | _ => throw (.invalid (.ofString "expected a single document in the stream, but found more") none)

end Yaml

end Transcode
