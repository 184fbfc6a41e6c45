import Transcode.Coercion

/-!
# Paths relative to the package root

Files named in the configuration are found relative to the package root. An absolute path (one
that starts with `/`) is taken as it is, unnormalized. A relative path is joined to the root as
the POSIX `path.join` of Node joins paths: the paths that are not empty are put together with a
`/` between them, and the result is normalized (`PackagePath.normalize`).

Normalization is Node's single pass over the units (`PackagePath.normalizeString`). It keeps the
output written so far, the length of the output's last segment, the units read since the last
separator and how many dots those are. Each separator closes the segment read before it, and so
does the end of the path unless a separator has just done so: an empty segment and `.` are
dropped; `..` removes the output's last segment, cutting the output at its last separator, or,
in a relative path with nothing left to remove, is written out; any other segment is appended. A
leading `/` and a trailing `/` are put back afterwards, and a path that normalizes to nothing is
`/`, `./` or `.`.

A path argument that is no text is refused with a type fault (`Value.requireText`).
-/

namespace Transcode

namespace PackagePath

/-- The separator `/`. -/
def slash : UInt16 := 0x2F

/-- The unit `.`. -/
def dot : UInt16 := 0x2E

/-- Whether a path is absolute. -/
def isAbsolute (p : Text) : Bool := p.units.head? = some slash

/-- The position of the last separator among some units (`lastIndexOf`), if there is one. -/
def lastSlashIndex : List UInt16 → Option Nat
  | [] => none
  | u :: rest =>
    match lastSlashIndex rest with
    | some j => some (j + 1)
    | none => if u = slash then some 0 else none

/-- The state of the single pass of normalization. -/
structure Scan where
  /-- The normalized output so far. -/
  res : List UInt16
  /-- The length of the output's last segment. -/
  lastSegmentLength : Nat
  /-- The units read since the last separator. -/
  segment : List UInt16
  /-- How many dots `segment` is, or `-1` once it holds another unit. -/
  dots : Int
  deriving Repr

namespace Scan

/-- The state before the first unit. -/
def init : Scan := ⟨[], 0, [], 0⟩

/-- Reads a unit that is no separator. -/
def read (s : Scan) (u : UInt16) : Scan :=
  { s with segment := s.segment ++ [u], dots := if u = dot && s.dots != -1 then s.dots + 1 else -1 }

/-- `..` takes away the output's last segment: the output is cut at its last separator, or
emptied when it has none. -/
def dropLastSegment (s : Scan) : Scan :=
  match lastSlashIndex s.res with
  | none => { s with res := [], lastSegmentLength := 0 }
  | some k =>
    let res := s.res.take k
    { s with
      res := res
      lastSegmentLength := match lastSlashIndex res with
        | none => res.length
        | some j => res.length - 1 - j }

/-- `..` written out, in a relative path with nothing left to take away. -/
def ascend (allowAboveRoot : Bool) (s : Scan) : Scan :=
  if allowAboveRoot then
    { s with
      res := if s.res.isEmpty then [dot, dot] else s.res ++ [slash, dot, dot]
      lastSegmentLength := 2 }
  else s

/-- Closes the segment read since the last separator. -/
def close (allowAboveRoot : Bool) (s : Scan) : Scan :=
  let s :=
    if s.segment.isEmpty || s.dots == 1 then s
    else if s.dots == 2 then
      -- `..`: take away the last segment, unless it is a `..` written out before
      if s.res.length < 2 || s.lastSegmentLength != 2 || s.res.getLast? != some dot ||
          s.res.dropLast.getLast? != some dot then
        if 2 < s.res.length then s.dropLastSegment
        else if s.res.length != 0 then { s with res := [], lastSegmentLength := 0 }
        else s.ascend allowAboveRoot
      else s.ascend allowAboveRoot
    else
      { s with
        res := if s.res.isEmpty then s.segment else s.res ++ slash :: s.segment
        lastSegmentLength := s.segment.length }
  { s with segment := [], dots := 0 }

/-- Reads one unit: a separator closes the segment before it. -/
def step (allowAboveRoot : Bool) (s : Scan) (u : UInt16) : Scan :=
  if u = slash then s.close allowAboveRoot else s.read u

end Scan

/-- Node's single pass of normalization over the units of a path: the normalized segments with
`/` between them, without the leading and the trailing `/`. `..` may be written out only when
`allowAboveRoot`, which is asked for relative paths. -/
def normalizeString (allowAboveRoot : Bool) (path : List UInt16) : List UInt16 :=
  let s := path.foldl (Scan.step allowAboveRoot) Scan.init
  -- the end of the path closes its last segment, unless a separator has just done so
  (if path.getLast? = some slash then s else s.close allowAboveRoot).res

/-- Node's `path.posix.normalize`. -/
def normalize (p : Text) : Text :=
  if p.units.isEmpty then ⟨[dot]⟩
  else
    let absolute := isAbsolute p
    let trailing := p.units.getLast? = some slash
    let res := normalizeString (!absolute) p.units
    if res.isEmpty then
      if absolute then ⟨[slash]⟩ else if trailing then ⟨[dot, slash]⟩ else ⟨[dot]⟩
    else
      let res := if trailing then res ++ [slash] else res
      ⟨if absolute then slash :: res else res⟩

/-- Node's `path.posix.join` of two paths: those that are not empty, joined by `/` and
normalized; `.` when both are empty. -/
def join (a b : Text) : Text :=
  match [a, b].filter (fun t => !t.units.isEmpty) with
  | [] => ⟨[dot]⟩
  | parts => normalize (Text.intercalate ⟨[slash]⟩ parts)

end PackagePath

/-- A path from the configuration resolved against the package root: absolute paths as they
are, relative ones joined to the root. -/
def resolvePackagePath (root p : Text) : Text :=
  if PackagePath.isAbsolute p then p else PackagePath.join root p

/-- A path argument resolved against the package root; it must be a text. -/
def resolvePathArgument (root : Text) (path : Value) : Except Fault Text :=
  (resolvePackagePath root ·) <$> path.requireText "path"

end Transcode
