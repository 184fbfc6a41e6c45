import Transcode.Text.Basic

/-!
# YAML errors and their marks

A YAML error names its reason and, usually, the place it was found: the input, the offset in
UTF-16 units, the line and the column (both counted from zero). Its message is the reason, the
place as `(line:column)` counted from one, and a snippet of the input around the place.

Reading can also fail outside the rules of YAML: a type whose test works on text may be handed
a value that a type has already made something else, and then calls a text operation the value
does not have (`data.toLowerCase is not a function`).

The snippet shows up to three lines before the line of the mark and two after it, each as
` <number> | <text>`, the numbers right-aligned to the widest one shown; a tab is shown as `→`,
and a line longer than the width is cut around the mark and marked `...`. Under the line of
the mark a row of `-` ends in `^` under the marked unit.
-/

namespace Transcode

namespace Yaml

/-- Where an error was found: the input (without its end marker), the offset, and the line
and column counted from zero. The column is the offset less the start of the line. -/
structure Mark where
  buffer : Array UInt16
  position : Nat
  line : Nat
  column : Int
  deriving Repr

/-- Why reading a stream failed. -/
inductive Error where
  /-- The stream breaks a rule of YAML or of the schema: the reason, and the mark when there
  is one. -/
  | invalid (reason : Text) (mark : Option Mark)
  /-- A type's test called the text operation `operation` on a value that is no text. -/
  | noTextOperation (operation : String)
  deriving Repr

namespace Snippet

/-- The line breaks of a buffer: offset and length of each `\r\n`, `\n`, `\r` or `0`. -/
def breaks (buf : Array UInt16) : List (Nat × Nat) :=
  go 0 buf.size
where
  go (i : Nat) : Nat → List (Nat × Nat)
    | 0 => []
    | fuel + 1 =>
      if h : i < buf.size then
        let u := buf[i]
        if u = 13 then
          if buf[i + 1]? = some 10 then (i, 2) :: go (i + 2) fuel else (i, 1) :: go (i + 1) fuel
        else if u = 10 || u = 0 then (i, 1) :: go (i + 1) fuel
        else go (i + 1) fuel
      else []

/-- The units of `buf` in `[a, b)`, both clamped into the buffer. -/
def slice (buf : Array UInt16) (a b : Int) : List UInt16 :=
  let a := min (max a 0) buf.size
  let b := min (max b 0) buf.size
  (buf.extract a.toNat b.toNat).toList

/-- One line cut to fit around `position`: its text and the column of `position` in it. -/
def cutLine (buf : Array UInt16) (lineStart : Int) (lineEnd : Option Int) (position : Int)
    (maxLength : Nat) : Text × Int :=
  let half : Int := (maxLength / 2 : Nat) - 1
  let (head, lineStart) :=
    if position - lineStart > half then (" ... ", position - half + 5) else ("", lineStart)
  let (tail, lineEnd) :=
    match lineEnd with
    | some e => if e - position > half then (" ...", some (position + half - 4)) else ("", some e)
    | none => ("", none)
  let body := slice buf lineStart (lineEnd.getD buf.size)
  let body := body.map fun u => if u = 9 then (0x2192 : UInt16) else u
  (Text.ofString head ++ ⟨body⟩ ++ Text.ofString tail, position - lineStart + head.length)

/-- `s` preceded by spaces up to `width` units. -/
def padStart (s : String) (width : Nat) : String :=
  String.ofList (List.replicate (width - s.length) ' ') ++ s

/-- `k` copies of a unit (none for `k ≤ 0`). -/
def units (u : Char) (k : Int) : Text := Text.ofString (String.ofList (List.replicate k.toNat u))

/-- The snippet around a mark, or `none` for an empty input. -/
def render (m : Mark) : Option Text :=
  if m.buffer.size = 0 then none else
  let bs := breaks m.buffer
  let starts : List Nat := 0 :: bs.map fun (i, l) => i + l
  let ends : List Nat := bs.map (·.1)
  let found : Nat := (bs.findIdx? fun (i, _) => m.position ≤ i).getD bs.length
  let numWidth := (toString (min (m.line + 2) ends.length)).length
  let maxLength := 79 - (1 + numWidth + 3)
  let startOf (k : Nat) : Int := starts.getD k 0
  let endOf (k : Nat) : Option Int := (ends[k]?).map (fun e => (e : Int))
  let pos : Int := m.position
  let row (number : Int) (t : Text) : Text :=
    Text.ofString (" " ++ padStart (toString number) numWidth ++ " | ") ++ t ++ Text.ofString "\n"
  let before : Text :=
    ((List.range 3).reverse.filterMap fun j =>
      let i := j + 1
      if i ≤ found then
        let k := found - i
        let (t, _) := cutLine m.buffer (startOf k) (endOf k) (pos - (startOf found - startOf k))
          maxLength
        some (row ((m.line : Int) - i + 1) t)
      else none).foldl (· ++ ·) Text.empty
  let (mainText, col) := cutLine m.buffer (startOf found) (endOf found) pos maxLength
  let main := row ((m.line : Int) + 1) mainText ++
    units '-' (1 + numWidth + 3 + col) ++ Text.ofString "^\n"
  let after : Text :=
    ((List.range 2).filterMap fun j =>
      let i := j + 1
      if found + i < ends.length then
        let k := found + i
        let (t, _) := cutLine m.buffer (startOf k) (endOf k) (pos + (startOf k - startOf found))
          maxLength
        some (row ((m.line : Int) + i + 1) t)
      else none).foldl (· ++ ·) Text.empty
  let all := (before ++ main ++ after).units
  some ⟨if all.getLast? = some 10 then all.dropLast else all⟩

end Snippet

/-- The name of the kind of failure. -/
def Error.name : Error → String
  | .invalid .. => "YAMLException"
  | .noTextOperation _ => "TypeError"

/-- The message of a failure: for a YAML error its reason, `(line:column)` from one, and the
snippet. -/
def Error.message : Error → Text
  | .invalid reason none => reason
  | .invalid reason (some m) =>
    let place := Text.ofString (" (" ++ toString (m.line + 1) ++ ":" ++ toString (m.column + 1) ++ ")")
    match Snippet.render m with
    | some s => reason ++ place ++ Text.ofString "\n\n" ++ s
    | none => reason ++ place
  | .noTextOperation op => .ofString ("data." ++ op ++ " is not a function")

end Yaml

end Transcode
