import Mathlib.Data.List.Basic
import Transcode.Transport

/-!
# Package paths as stacks of segments

Joining a relative path to the package root normalizes the joined path in one pass over its
units (`PackagePath.normalizeString`). Here that pass is shown to compute the plain reading of
a path: split it at `/` and read the segments onto a stack, where an empty segment and `.`
change nothing, `..` takes the top segment away and any other segment goes on top
(`PackagePath.pushSegment`).

The pass keeps the output, the length of its last segment and the segment being read with a
count of its dots. Those stand for a stack of proper segments (`PackagePath.Scan.Holds`): the
output is the stack joined by `/`. Every unit keeps that reading, and each separator pushes the
segment before it (`Scan.Holds.close`). The one test of the pass that reads the output itself,
whether its last segment is a `..` written out before, never holds on an absolute path, whose
stack has no `..` in it.

## Main results

* `PackagePath.normalize_cons_slash`: an absolute path normalizes to the segments it leaves.
* `PackagePath.join_render`: joining a path to a root given by its segments.
* `resolvePackagePath_joins`: relative paths are joined to the root segment by segment,
  absolute ones kept; the result is absolute, starts with the root while no `..` climbs above
  it, and is where the file transport writes.
-/

namespace Transcode

namespace PackagePath

/-! ## The reading by segments -/

/-- A segment of a normalized path: not empty, free of separators, and neither `.` nor `..`. -/
def Proper (seg : List UInt16) : Prop :=
  seg ≠ [] ∧ slash ∉ seg ∧ seg ≠ [dot] ∧ seg ≠ [dot, dot]

instance (seg : List UInt16) : Decidable (Proper seg) :=
  inferInstanceAs (Decidable (_ ∧ _ ∧ _ ∧ _))

/-- One segment read onto a stack of segments with the last one on top: an empty segment and `.`
change nothing, `..` takes the top away (nothing is above the root), any other segment goes on
top. -/
def pushSegment (stack : List (List UInt16)) (seg : List UInt16) : List (List UInt16) :=
  if seg = [] ∨ seg = [dot] then stack
  else if seg = [dot, dot] then stack.tail
  else seg :: stack

/-- The absolute path of some segments, with a trailing `/` when asked for and a segment is
there to carry it. -/
def render (segs : List (List UInt16)) (trailing : Bool) : Text :=
  ⟨slash :: ([slash].intercalate segs ++ if trailing && !segs.isEmpty then [slash] else [])⟩

/-- The segments of the root followed by those of a path, read as `pushSegment` reads them. -/
def joinSegments (rs : List (List UInt16)) (p : Text) : List (List UInt16) :=
  ((p.units.splitOn slash).foldl pushSegment rs.reverse).reverse

/-- One segment of a relative path read below a directory: `none` for a `..` that would climb
above it. -/
def descend? (stack : List (List UInt16)) (seg : List UInt16) : Option (List (List UInt16)) :=
  if seg = [dot, dot] ∧ stack = [] then none else some (pushSegment stack seg)

/-- The segments a relative path leaves below the directory it is read from, or `none` when one
of its `..` climbs above that directory. -/
def segmentsBelow? (p : Text) : Option (List (List UInt16)) :=
  ((p.units.splitOn slash).foldlM descend? []).map List.reverse

theorem pushSegment_of_proper {seg : List UInt16} (h : Proper seg) (stack : List (List UInt16)) :
    pushSegment stack seg = seg :: stack := by
  obtain ⟨hNil, -, hDot, hDotDot⟩ := h
  simp [pushSegment, hNil, hDot, hDotDot]

/-- Proper segments all go on the stack. -/
theorem foldl_pushSegment_of_proper {segs : List (List UInt16)} (h : ∀ seg ∈ segs, Proper seg)
    (stack : List (List UInt16)) : segs.foldl pushSegment stack = segs.reverse ++ stack := by
  induction segs generalizing stack with
  | nil => rfl
  | cons seg rest ih =>
    rw [List.foldl_cons, pushSegment_of_proper (h seg (by simp)),
      ih (fun s hs => h s (by simp [hs]))]
    simp

/-- The segments of a path joined by `/` read back as they are; no segment is read from an empty
path. -/
theorem foldl_pushSegment_splitOn_intercalate {rs : List (List UInt16)}
    (h : ∀ seg ∈ rs, Proper seg) (stack : List (List UInt16)) :
    (([slash].intercalate rs).splitOn slash).foldl pushSegment stack = rs.reverse ++ stack := by
  cases rs with
  | nil => simp [pushSegment]
  | cons seg rest =>
    rw [List.splitOn_intercalate slash (fun s hs => (h s hs).2.1) (List.cons_ne_nil _ _)]
    exact foldl_pushSegment_of_proper h stack

/-- While no `..` climbs above the directory, reading below it leaves the stack beneath
untouched. -/
theorem foldl_pushSegment_of_foldlM_descend {segs below : List (List UInt16)} :
    ∀ {acc : List (List UInt16)}, segs.foldlM descend? acc = some below →
      ∀ stack, segs.foldl pushSegment (acc ++ stack) = below ++ stack := by
  induction segs with
  | nil =>
    intro acc h stack
    simp only [List.foldlM_nil, pure, Option.some.injEq] at h
    simp [h]
  | cons seg rest ih =>
    intro acc h stack
    rw [List.foldlM_cons] at h
    -- the first segment is read below the directory, so it reads the same on the whole stack
    have hFirst : ¬ (seg = [dot, dot] ∧ acc = []) := by
      intro hClimb
      simp [descend?, hClimb] at h
    have hStep : pushSegment (acc ++ stack) seg = pushSegment acc seg ++ stack := by
      unfold pushSegment
      split_ifs with hSkip hUp
      · rfl
      · cases acc with
        | nil => exact absurd ⟨hUp, rfl⟩ hFirst
        | cons top rest => rfl
      · rfl
    simp only [descend?, hFirst, if_false, Option.bind_eq_bind, Option.bind_some] at h
    rw [List.foldl_cons, hStep]
    exact ih h stack

/-! ## Units of rendered paths -/

theorem intercalate_append_singleton {segs : List (List UInt16)} (hsegs : segs ≠ [])
    (seg : List UInt16) :
    [slash].intercalate (segs ++ [seg]) = [slash].intercalate segs ++ slash :: seg := by
  induction segs with
  | nil => exact absurd rfl hsegs
  | cons first rest ih =>
    cases rest with
    | nil => simp
    | cons second more =>
      have hTail := ih (List.cons_ne_nil _ _)
      simp only [List.cons_append] at hTail ⊢
      rw [List.intercalate_cons_cons, hTail, List.intercalate_cons_cons]
      simp

theorem intercalate_eq_nil_iff {segs : List (List UInt16)} (h : ∀ seg ∈ segs, seg ≠ []) :
    [slash].intercalate segs = [] ↔ segs = [] := by
  cases segs with
  | nil => simp
  | cons seg rest =>
    cases rest with
    | nil => simpa using h seg (by simp)
    | cons _ _ => simp

/-- Proper segments joined by `/` give units, as long as there are some. -/
theorem intercalate_ne_nil {segs : List (List UInt16)} (h : ∀ seg ∈ segs, Proper seg)
    (hSegments : segs ≠ []) : [slash].intercalate segs ≠ [] := fun hNil =>
  hSegments ((intercalate_eq_nil_iff fun seg hs => (h seg hs).1).mp hNil)

/-- Segments joined by `/` end in a unit of the last one, never in a separator. -/
theorem getLast?_intercalate_ne {segs : List (List UInt16)} (h : ∀ seg ∈ segs, Proper seg) :
    ([slash].intercalate segs).getLast? ≠ some slash := by
  induction segs with
  | nil => simp
  | cons seg rest ih =>
    have hRest := ih (fun s hs => h s (by simp [hs]))
    cases rest with
    | nil => simpa using fun hLast => (h seg (by simp)).2.1 (List.mem_of_getLast? hLast)
    | cons next more =>
      have hNext := intercalate_ne_nil (fun s hs => h s (List.mem_cons_of_mem seg hs))
        (List.cons_ne_nil next more)
      rw [List.intercalate_cons_cons, List.getLast?_append_of_ne_nil _ hNext]
      exact hRest

/-- The segments joined by `/` before some more are a prefix of all of them joined. -/
theorem intercalate_prefix_append (rs more : List (List UInt16)) :
    [slash].intercalate rs <+: [slash].intercalate (rs ++ more) := by
  induction rs with
  | nil => exact List.nil_prefix
  | cons seg rest ih =>
    cases rest with
    | nil =>
      cases more with
      | nil => simp
      | cons next tail => simp
    | cons next tail =>
      simp only [List.cons_append] at ih ⊢
      simpa [List.intercalate_cons_cons] using ih

/-- The output of a stack with more below its top: the rest joined, then the top after a
separator. -/
theorem intercalate_reverse_cons (top : List UInt16) {rest : List (List UInt16)} (h : rest ≠ []) :
    [slash].intercalate (top :: rest).reverse =
      [slash].intercalate rest.reverse ++ slash :: top := by
  rw [List.reverse_cons, intercalate_append_singleton (List.reverse_ne_nil_iff.mpr h)]

/-- The output of a stack ends with its top segment. -/
theorem exists_intercalate_reverse_cons (top : List UInt16) (rest : List (List UInt16)) :
    ∃ pre, [slash].intercalate (top :: rest).reverse = pre ++ top := by
  cases rest with
  | nil => exact ⟨[], by simp⟩
  | cons next more =>
    refine ⟨[slash].intercalate (next :: more).reverse ++ [slash], ?_⟩
    rw [intercalate_reverse_cons top (List.cons_ne_nil _ _)]
    simp

theorem lastSlashIndex_eq_none {us : List UInt16} (h : slash ∉ us) :
    lastSlashIndex us = none := by
  induction us with
  | nil => rfl
  | cons u rest ih =>
    simp only [List.mem_cons, not_or] at h
    simp [lastSlashIndex, ih h.2, Ne.symm h.1]

/-- The last separator before a segment free of separators is the one right before it. -/
theorem lastSlashIndex_append_cons (pre : List UInt16) {seg : List UInt16} (h : slash ∉ seg) :
    lastSlashIndex (pre ++ slash :: seg) = some pre.length := by
  induction pre with
  | nil => simp [lastSlashIndex, lastSlashIndex_eq_none h]
  | cons u rest ih => simp [lastSlashIndex, ih]

/-! ## The pass over the units -/

/-- The count of dots the pass keeps for a segment: its length while it is only dots, `-1` once
another unit is in it. -/
def dotCount (seg : List UInt16) : Int := if seg.all (· = dot) then seg.length else -1

theorem dotCount_append (seg : List UInt16) (u : UInt16) :
    dotCount (seg ++ [u]) = if u = dot && dotCount seg != -1 then dotCount seg + 1 else -1 := by
  unfold dotCount
  by_cases hAll : seg.all (· = dot) = true
  · by_cases hu : u = dot
    · simp [hAll, hu]
    · simp [hAll, hu]
  · simp [hAll]

/-- A positive count is that of a segment of so many dots and nothing else. -/
theorem dotCount_eq_iff {seg : List UInt16} {n : Nat} (hn : 0 < n) :
    dotCount seg = n ↔ seg = List.replicate n dot := by
  unfold dotCount
  rw [List.eq_replicate_iff]
  split
  · rename_i hAll
    simp only [List.all_eq_true, decide_eq_true_eq] at hAll
    rw [Int.natCast_inj]
    exact ⟨fun hLength => ⟨hLength, hAll⟩, And.left⟩
  · rename_i hAll
    simp only [List.all_eq_true, decide_eq_true_eq] at hAll
    constructor
    · intro hCount
      omega
    · rintro ⟨-, hDots⟩
      exact absurd hDots hAll

namespace Scan

/-- The state `s` of the pass stands for the stack of proper segments `stack`, the last one on
top: its output is the stack joined by `/`, its last segment length is that of the top, and the
segment being read has no separator and its dots counted. -/
structure Holds (s : Scan) (stack : List (List UInt16)) : Prop where
  proper : ∀ seg ∈ stack, Proper seg
  res_eq : s.res = [slash].intercalate stack.reverse
  lastSegmentLength_eq : s.lastSegmentLength = (stack.head?.map List.length).getD 0
  slash_not_mem : slash ∉ s.segment
  dots_eq : s.dots = dotCount s.segment

theorem holds_init : Holds init [] :=
  ⟨by simp, rfl, rfl, by simp [init], rfl⟩

/-- Reading a unit that is no separator extends the segment and keeps the stack. -/
theorem Holds.read {s : Scan} {stack : List (List UInt16)} (h : Holds s stack) {u : UInt16}
    (hu : u ≠ slash) : Holds (s.read u) stack where
  proper := h.proper
  res_eq := h.res_eq
  lastSegmentLength_eq := h.lastSegmentLength_eq
  slash_not_mem := by
    simp only [Scan.read, List.mem_append, List.mem_singleton, not_or]
    exact ⟨h.slash_not_mem, Ne.symm hu⟩
  dots_eq := by
    simp only [Scan.read, dotCount_append, h.dots_eq]

/-- `..` on the output of a stack takes the top segment away. -/
theorem dropLastSegment_of_res {s : Scan} {stack : List (List UInt16)}
    (hProper : ∀ seg ∈ stack, Proper seg) (hRes : s.res = [slash].intercalate stack.reverse) :
    s.dropLastSegment.res = [slash].intercalate stack.tail.reverse ∧
      s.dropLastSegment.lastSegmentLength = (stack.tail.head?.map List.length).getD 0 := by
  unfold dropLastSegment
  match stack, hProper with
  | [], _ => simp [hRes, lastSlashIndex]
  | [top], hProper =>
    rw [hRes, List.reverse_singleton, List.intercalate_singleton,
      lastSlashIndex_eq_none (hProper top (by simp)).2.1]
    simp
  | top :: below :: rest, hProper =>
    rw [hRes, intercalate_reverse_cons top (List.cons_ne_nil _ _),
      lastSlashIndex_append_cons _ (hProper top (by simp)).2.1]
    simp only [List.take_left, List.tail_cons, List.head?_cons, Option.map_some,
      Option.getD_some, true_and]
    -- the new last segment is `below`, after the separator before it if there is one
    cases rest with
    | nil => simp [lastSlashIndex_eq_none (hProper below (by simp)).2.1]
    | cons next more =>
      rw [intercalate_reverse_cons below (List.cons_ne_nil _ _),
        lastSlashIndex_append_cons _ (hProper below (by simp)).2.1]
      simp

/-- On a stack of proper segments the output never ends in a `..` written out before. -/
theorem Holds.not_ends_in_dotDot {s : Scan} {stack : List (List UInt16)} (h : Holds s stack) :
    ¬ (s.lastSegmentLength = 2 ∧ s.res.getLast? = some dot ∧
      s.res.dropLast.getLast? = some dot) := by
  rintro ⟨hLength, hLast, hBefore⟩
  cases stack with
  | nil => simp [h.res_eq] at hLast
  | cons top rest =>
    obtain ⟨pre, hPre⟩ := exists_intercalate_reverse_cons top rest
    have hTop : top.length = 2 := by simpa [h.lastSegmentLength_eq] using hLength
    have hProper := h.proper top (by simp)
    match top, hTop with
    | [x, y], _ =>
      rw [h.res_eq, hPre] at hLast hBefore
      simp at hLast hBefore
      exact hProper.2.2.2 (by rw [hLast, hBefore])

/-- The output is empty exactly when the stack is. -/
theorem Holds.res_eq_nil_iff {s : Scan} {stack : List (List UInt16)} (h : Holds s stack) :
    s.res = [] ↔ stack = [] := by
  rw [h.res_eq, intercalate_eq_nil_iff fun seg hs => (h.proper seg (List.mem_reverse.mp hs)).1,
    List.reverse_eq_nil_iff]

/-- An output of at most two units stands for at most one segment. -/
theorem Holds.tail_eq_nil {s : Scan} {stack : List (List UInt16)} (h : Holds s stack)
    (hShort : s.res.length ≤ 2) : stack.tail = [] := by
  match stack, h with
  | [], _ => rfl
  | [_], _ => rfl
  | top :: below :: rest, h =>
    have hTop := (h.proper top (by simp)).1
    have hBelow := intercalate_ne_nil
      (fun seg hs => h.proper seg (List.mem_cons_of_mem top (List.mem_reverse.mp hs)))
      (List.reverse_ne_nil_iff.mpr (List.cons_ne_nil below rest))
    rw [h.res_eq, intercalate_reverse_cons top (List.cons_ne_nil _ _)] at hShort
    simp only [List.length_append, List.length_cons] at hShort
    have := List.length_pos_of_ne_nil hTop
    have := List.length_pos_of_ne_nil hBelow
    omega

/-- Once the segment is closed, the output alone says which stack a state stands for. -/
theorem holds_closed {res : List UInt16} {length : Nat} {stack : List (List UInt16)}
    (hProper : ∀ seg ∈ stack, Proper seg) (hRes : res = [slash].intercalate stack.reverse)
    (hLength : length = (stack.head?.map List.length).getD 0) :
    Holds ⟨res, length, [], 0⟩ stack :=
  ⟨hProper, hRes, hLength, by simp, rfl⟩

/-- Closing a segment pushes it onto the stack. -/
theorem Holds.close {s : Scan} {stack : List (List UInt16)} (h : Holds s stack) :
    Holds (s.close false) (pushSegment stack s.segment) := by
  unfold Scan.close
  by_cases hSkip : s.segment = [] ∨ s.segment = [dot]
  · have hTest : (s.segment.isEmpty || s.dots == 1) = true := by
      rcases hSkip with hNil | hDot
      · simp [hNil]
      · simp [h.dots_eq, hDot, dotCount]
    rw [if_pos hTest, show pushSegment stack s.segment = stack from if_pos hSkip]
    exact holds_closed h.proper h.res_eq h.lastSegmentLength_eq
  · have hOne : dotCount s.segment ≠ 1 := fun hCount =>
      hSkip (.inr ((dotCount_eq_iff Nat.one_pos).mp hCount))
    have hTest : (s.segment.isEmpty || s.dots == 1) = false := by
      simpa [h.dots_eq, hOne, List.isEmpty_iff] using fun hNil => hSkip (.inl hNil)
    simp only [hTest, Bool.false_eq_true, if_false]
    by_cases hUp : s.segment = [dot, dot]
    · have hTwo : (s.dots == 2) = true := by simp [h.dots_eq, hUp, dotCount]
      have hPop : pushSegment stack s.segment = stack.tail := by simp [pushSegment, hUp]
      have hCond : (s.res.length < 2 || s.lastSegmentLength != 2 || s.res.getLast? != some dot ||
          s.res.dropLast.getLast? != some dot) = true := by
        have := h.not_ends_in_dotDot
        simp only [Bool.or_eq_true, decide_eq_true_eq, bne_iff_ne, ne_eq]
        tauto
      rw [if_pos hTwo, if_pos hCond, hPop]
      have hTailProper : ∀ seg ∈ stack.tail, Proper seg := fun seg hs =>
        h.proper seg (List.mem_of_mem_tail hs)
      split
      · obtain ⟨hRes, hLength⟩ := dropLastSegment_of_res h.proper h.res_eq
        exact holds_closed hTailProper hRes hLength
      · have hTail := h.tail_eq_nil (by omega)
        split
        · rw [hTail]
          exact holds_closed (by simp) rfl rfl
        · -- nothing is on the stack, and `..` above the root is dropped
          have hEmpty : s.res = [] := by simpa using ‹¬(s.res.length != 0) = true›
          obtain rfl := h.res_eq_nil_iff.mp hEmpty
          simp only [ascend, Bool.false_eq_true, if_false]
          exact holds_closed (by simp) (by simp [hEmpty]) (by simpa using h.lastSegmentLength_eq)
    · have hTwo : (s.dots == 2) = false := by
        have hCount : dotCount s.segment ≠ 2 := fun hCount =>
          hUp ((dotCount_eq_iff Nat.two_pos).mp hCount)
        simpa [h.dots_eq] using hCount
      have hProper : Proper s.segment :=
        ⟨fun hNil => hSkip (.inl hNil), h.slash_not_mem, fun hDot => hSkip (.inr hDot), hUp⟩
      simp only [hTwo, Bool.false_eq_true, if_false, pushSegment_of_proper hProper]
      refine holds_closed (List.forall_mem_cons.mpr ⟨hProper, h.proper⟩) ?_ rfl
      cases stack with
      | nil => simp [h.res_eq]
      | cons top rest =>
        have hNonempty : s.res.isEmpty = false := by
          simpa [List.isEmpty_iff] using h.res_eq_nil_iff
        rw [hNonempty, intercalate_reverse_cons _ (List.cons_ne_nil _ _), ← h.res_eq]
        rfl

/-- A closed state, with no segment read since, is closed again as it is. -/
theorem close_of_segment_nil {s : Scan} (hSegment : s.segment = []) (hDots : s.dots = 0)
    (allowAboveRoot : Bool) : s.close allowAboveRoot = s := by
  obtain ⟨res, length, segment, dots⟩ := s
  simp only at hSegment hDots
  subst hSegment hDots
  simp [close]

theorem close_close (s : Scan) (allowAboveRoot : Bool) :
    (s.close allowAboveRoot).close allowAboveRoot = s.close allowAboveRoot :=
  close_of_segment_nil rfl rfl allowAboveRoot

/-- **The pass reads by segments**: after some units, closing the state pushes the segments of the
units read since the last separator followed by the units. -/
theorem Holds.foldl_close {s : Scan} {stack : List (List UInt16)} (h : Holds s stack)
    (units : List UInt16) :
    Holds ((units.foldl (step false) s).close false)
      (((s.segment ++ units).splitOn slash).foldl pushSegment stack) := by
  induction units generalizing s stack with
  | nil =>
    rw [List.append_nil, List.splitOn_eq_singleton h.slash_not_mem]
    exact h.close
  | cons u rest ih =>
    rw [List.foldl_cons]
    by_cases hu : u = slash
    · rw [step, if_pos hu, hu, List.splitOn_append_cons_self_of_not_mem h.slash_not_mem,
        List.foldl_cons]
      exact ih h.close
    · rw [step, if_neg hu, ← List.singleton_append, ← List.append_assoc]
      exact ih (h.read hu)

end Scan

/-- The pass with `..` kept within the root is the output of the stack the segments leave. -/
theorem normalizeString_false_eq (path : List UInt16) :
    normalizeString false path =
      [slash].intercalate ((path.splitOn slash).foldl pushSegment []).reverse := by
  have hHolds := Scan.holds_init.foldl_close path
  rw [show Scan.init.segment ++ path = path from rfl] at hHolds
  rw [← hHolds.res_eq]
  unfold normalizeString
  split
  · -- a path that ends in a separator has closed its last segment already
    obtain ⟨front, rfl⟩ := List.getLast?_eq_some_iff.mp ‹path.getLast? = some slash›
    rw [List.foldl_append, List.foldl_cons, List.foldl_nil, Scan.step, if_pos rfl,
      Scan.close_close]
  · rfl

/-- The segments a path leaves are proper. -/
theorem proper_of_mem_foldl_splitOn (path : List UInt16) :
    ∀ seg ∈ (path.splitOn slash).foldl pushSegment [], Proper seg :=
  (Scan.holds_init.foldl_close path).proper

/-! ## Normalizing and joining -/

theorem isAbsolute_render (segs : List (List UInt16)) (trailing : Bool) :
    isAbsolute (render segs trailing) = true := by
  simp [isAbsolute, render]

/-- The trailing `/` asked for matters only where a segment can carry it. -/
theorem render_congr_trailing {segs : List (List UInt16)} {t t' : Bool}
    (h : segs ≠ [] → t = t') : render segs t = render segs t' := by
  cases segs with
  | nil => simp [render]
  | cons seg rest => rw [h (List.cons_ne_nil _ _)]

/-- **An absolute path normalizes to the segments it leaves**, with a trailing `/` when it ends in
one. -/
theorem normalize_cons_slash (body : List UInt16) :
    normalize ⟨slash :: body⟩ =
      render ((body.splitOn slash).foldl pushSegment []).reverse
        ((slash :: body).getLast? = some slash) := by
  -- the separator in front only adds an empty segment
  have hSplit : (slash :: body).splitOn slash = [] :: body.splitOn slash :=
    List.splitOn_append_cons_self_of_not_mem (List.not_mem_nil) body
  have hRes := normalizeString_false_eq (slash :: body)
  rw [hSplit, List.foldl_cons, show pushSegment [] [] = [] from rfl] at hRes
  unfold normalize
  simp only [List.isEmpty_cons, Bool.false_eq_true, if_false, isAbsolute, List.head?_cons,
    decide_true, Bool.not_true, hRes, if_true]
  have hProper := proper_of_mem_foldl_splitOn body
  generalize (body.splitOn slash).foldl pushSegment [] = stack at hProper ⊢
  cases stack with
  | nil => simp [render]
  | cons top rest =>
    have hOutput := intercalate_ne_nil (fun seg hs => hProper seg (List.mem_reverse.mp hs))
      (List.reverse_ne_nil_iff.mpr (List.cons_ne_nil top rest))
    rw [List.reverse_cons] at hOutput
    by_cases hTrailing : (slash :: body).getLast? = some slash <;>
      simp [render, hOutput, hTrailing]

/-- Reading back the units of a rendered path gives its segments. -/
theorem foldl_pushSegment_render {rs : List (List UInt16)} (h : ∀ seg ∈ rs, Proper seg)
    (trailing : Bool) :
    ((([slash].intercalate rs ++ if trailing && !rs.isEmpty then [slash] else []).splitOn
      slash).foldl pushSegment []).reverse = rs := by
  split
  · rw [List.splitOn_append_cons_self, List.foldl_append, foldl_pushSegment_splitOn_intercalate h]
    simp [pushSegment]
  · rw [List.append_nil, foldl_pushSegment_splitOn_intercalate h]
    simp

/-- **A normalized absolute path normalizes to itself.** -/
theorem normalize_render {rs : List (List UInt16)} (h : ∀ seg ∈ rs, Proper seg)
    (trailing : Bool) :
    normalize (render rs trailing) = render rs trailing := by
  conv_lhs => rw [render]
  rw [normalize_cons_slash, foldl_pushSegment_render h]
  apply render_congr_trailing
  intro hSegments
  have hOutput := intercalate_ne_nil h hSegments
  -- without a trailing separator the path ends in a unit of its last segment
  cases trailing with
  | true =>
    have hNotEmpty : rs.isEmpty = false := List.isEmpty_eq_false_iff.mpr hSegments
    simp only [Bool.true_and, hNotEmpty, Bool.not_false, if_true, ← List.cons_append,
      List.getLast?_concat, decide_true]
  | false =>
    simp only [Bool.false_and, Bool.false_eq_true, if_false, List.append_nil,
      decide_eq_false_iff_not]
    rw [← List.singleton_append, List.getLast?_append_of_ne_nil _ hOutput]
    exact getLast?_intercalate_ne h

/-- **Joining a path to a root given by its segments** reads the path's segments onto the
root's, and keeps the path's trailing `/`. -/
theorem join_render {rs : List (List UInt16)} (h : ∀ seg ∈ rs, Proper seg) (p : Text) :
    join (render rs false) p = render (joinSegments rs p) (p.units.getLast? = some slash) := by
  by_cases hEmpty : p.units = []
  · -- an empty path is left out, and the root is normalized as it is
    have hParts :
        [render rs false, p].filter (fun t => !t.units.isEmpty) = [render rs false] := by
      simp [hEmpty, render]
    rw [join, hParts]
    simp only [Text.intercalate]
    rw [normalize_render h]
    simp [joinSegments, hEmpty, pushSegment]
  · have hParts : [render rs false, p].filter (fun t => !t.units.isEmpty) =
        [render rs false, p] := by
      simp [hEmpty, render]
    have hJoined : Text.intercalate ⟨[slash]⟩ [render rs false, p] =
        ⟨slash :: ([slash].intercalate rs ++ slash :: p.units)⟩ := by
      show Text.mk ((slash :: ([slash].intercalate rs ++ [])) ++ [slash] ++ p.units) = _
      simp
    rw [join, hParts]
    simp only
    rw [hJoined, normalize_cons_slash, List.splitOn_append_cons_self, List.foldl_append,
      foldl_pushSegment_splitOn_intercalate h, List.append_nil]
    -- the joined path ends where the path does
    have hLast : (slash :: ([slash].intercalate rs ++ slash :: p.units)).getLast? =
        p.units.getLast? := by
      rw [← List.cons_append, List.getLast?_append_of_ne_nil _ (List.cons_ne_nil _ _),
        ← List.singleton_append, List.getLast?_append_of_ne_nil _ hEmpty]
    rw [hLast]
    rfl

/-- While no `..` of a path climbs above the root, the root's segments stay and the segments the
path leaves below it follow them. -/
theorem joinSegments_of_segmentsBelow? {p : Text} {below : List (List UInt16)}
    (h : segmentsBelow? p = some below) (rs : List (List UInt16)) :
    joinSegments rs p = rs ++ below := by
  unfold segmentsBelow? at h
  obtain ⟨stack, hStack, rfl⟩ := Option.map_eq_some_iff.mp h
  unfold joinSegments
  rw [← List.nil_append rs.reverse, foldl_pushSegment_of_foldlM_descend hStack]
  simp

/-- A path of the root's segments followed by more starts with the root. -/
theorem startsWith_render_append (rs more : List (List UInt16)) (trailing : Bool) :
    (render (rs ++ more) trailing).startsWith (render rs false) = true := by
  unfold Text.startsWith render
  rw [List.isPrefixOf_iff_prefix]
  simp only [Bool.false_and, Bool.false_eq_true, if_false, List.append_nil, List.cons_prefix_cons,
    true_and]
  exact (intercalate_prefix_append rs more).trans (List.prefix_append _ _)

end PackagePath

open PackagePath

/-- A relative path is joined to a root given by its segments. -/
theorem resolvePackagePath_render {rs : List (List UInt16)} (h : ∀ seg ∈ rs, Proper seg)
    {p : Text} (hp : isAbsolute p = false) :
    resolvePackagePath (render rs false) p =
      render (joinSegments rs p) (p.units.getLast? = some slash) := by
  rw [resolvePackagePath, if_neg (by simp [hp]), join_render h]

/-- The file target writes to its path resolved against the root, whatever `pretty` says. -/
theorem Transport.ofSettings_file (root : Text) {s : LogSettings}
    (hTarget : Transport.isFileTarget s.target = true) {path : Text}
    (hPath : s.filePath = .text path) :
    Transport.ofSettings root s = .ok (.file (resolvePackagePath root path) s.level) := by
  rw [Transport.ofSettings, if_pos hTarget, resolvePathArgument, hPath]
  rfl

/-- **Package paths resolve segment by segment.** Let the package root be the absolute,
normalized path of the proper segments `rs`. An absolute path is kept as it is. A relative path
is joined to the root: the root's segments, then the path's read onto them (an empty segment and
`.` dropped, `..` taking away the segment before it), with the path's trailing `/` kept where a
segment remains to carry it. While no `..` of the path climbs above the root, the result is the
root followed by the segments the path leaves, so it starts with the root, and is the root itself
(with that trailing `/`) when the path leaves none. Every result is absolute, so resolving it again
changes nothing, and the file transport writes there whatever `pretty` says. -/
theorem package_path_resolution (rs : List (List UInt16)) (hRoot : ∀ seg ∈ rs, Proper seg) :
    normalize (render rs false) = render rs false ∧
    (∀ p, isAbsolute p = true → resolvePackagePath (render rs false) p = p) ∧
    (∀ p, isAbsolute p = false →
      resolvePackagePath (render rs false) p =
        render (joinSegments rs p) (p.units.getLast? = some slash)) ∧
    (∀ p below, isAbsolute p = false → segmentsBelow? p = some below →
      resolvePackagePath (render rs false) p =
          render (rs ++ below) (p.units.getLast? = some slash) ∧
        (resolvePackagePath (render rs false) p).startsWith (render rs false) = true) ∧
    (∀ p, isAbsolute (resolvePackagePath (render rs false) p) = true ∧
      resolvePackagePath (render rs false) (resolvePackagePath (render rs false) p) =
        resolvePackagePath (render rs false) p) ∧
    (∀ (s : LogSettings) (path : Text), Transport.isFileTarget s.target = true →
      s.filePath = .text path →
      Transport.ofSettings (render rs false) s =
        .ok (.file (resolvePackagePath (render rs false) path) s.level)) := by
  -- every result is absolute: an absolute path is kept, a relative one is rendered
  have hAbsolute : ∀ p, isAbsolute (resolvePackagePath (render rs false) p) = true := by
    intro p
    cases hp : isAbsolute p with
    | true => rwa [resolvePackagePath, if_pos hp]
    | false => rw [resolvePackagePath_render hRoot hp]; exact isAbsolute_render _ _
  refine ⟨normalize_render hRoot false, fun p hp => if_pos hp,
    fun p hp => resolvePackagePath_render hRoot hp, ?_,
    fun p => ⟨hAbsolute p, if_pos (hAbsolute p)⟩,
    fun s path hTarget hPath => Transport.ofSettings_file _ hTarget hPath⟩
  intro p below hp hBelow
  rw [resolvePackagePath_render hRoot hp, joinSegments_of_segmentsBelow? hBelow]
  exact ⟨rfl, startsWith_render_append rs below _⟩

/-- The root `/usr` and the relative path `lib/../bin/`, which resolves to `/usr/bin/`. -/
theorem package_path_resolution_usr :
    (∀ seg ∈ [[0x75, 0x73, 0x72]], Proper seg) ∧
      isAbsolute ⟨[0x6C, 0x69, 0x62, 0x2F, 0x2E, 0x2E, 0x2F, 0x62, 0x69, 0x6E, 0x2F]⟩ =
        false ∧
      resolvePackagePath (render [[0x75, 0x73, 0x72]] false)
          ⟨[0x6C, 0x69, 0x62, 0x2F, 0x2E, 0x2E, 0x2F, 0x62, 0x69, 0x6E, 0x2F]⟩ =
        render [[0x75, 0x73, 0x72], [0x62, 0x69, 0x6E]] true :=
  have hRoot : ∀ seg ∈ [[(0x75 : UInt16), 0x73, 0x72]], Proper seg :=
    List.forall_mem_singleton.mpr (by decide)
  ⟨hRoot, rfl, (package_path_resolution _ hRoot).2.2.1 _ rfl⟩

end Transcode
