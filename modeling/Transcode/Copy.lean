import Transcode.Check

/-!
# Copying into 32-bit integer arrays

A copy is a fresh array of 32-bit two's-complement cells. The source is either an array of such
cells or an array of numbers; a number is stored the way a 32-bit cell stores it
(`Binary64.toInt32`: truncate toward zero, wrap modulo `2 ^ 32`, `0` for NaN and infinities),
and a cell is stored as itself.

`copyOf` truncates or zero-pads to a length, which may not exceed `maxCells` nor the memory
bound `maxAllocatedCells`; `copyOfRange`
takes the cells of `[from, upto)`. Both check their arguments first (`Transcode.Check`) and
fail with the first fault found.
-/

namespace Transcode

/-- The source of a copy: 32-bit cells, or numbers that are stored as cells. -/
inductive Source where
  | cells (xs : List Int32)
  | numbers (xs : List Binary64)
  deriving Repr

namespace Source

/-- Number of elements. -/
def size : Source → Nat
  | .cells xs => xs.length
  | .numbers xs => xs.length

/-- The elements as stored in 32-bit cells. -/
def toCells : Source → List Int32
  | .cells xs => xs
  | .numbers xs => xs.map Binary64.toInt32

end Source

/-- The most cells an array may hold: its bytes, four to a cell, stay below `2 ^ 53`. -/
def maxCells : Nat := (Nat.pow 2 53 - 1) / 4

/-- The most cells a new array is given memory for: `2 ^ 32` cells, sixteen gibibytes. Memory
for a longer array is refused. -/
def maxAllocatedCells : Nat := Nat.pow 2 32

/-- A fresh array of `length` cells: the source's first cells, then zeros. -/
def copyOf (source : Option Source) (length : Option Binary64) : Except Fault (List Int32) := do
  let s ← Check.present source (.ofString "copyOf(null, ...)")
  let n ← Check.present length (.ofString "copyOf(..., null)")
  let n ← Check.length (.ofString "length") n
  let n := n.truncate.toNat
  if n > maxCells then throw (.arrayLength n)
  if n > maxAllocatedCells then throw .allocation
  let kept := s.toCells.take n
  return kept ++ List.replicate (n - kept.length) 0

/-- A fresh array of the source's cells at `[from, upto)`. -/
def copyOfRange (source : Option Source) (lo hi : Option Binary64) :
    Except Fault (List Int32) := do
  let s ← Check.present source (.ofString "copyOfRange(null, ...)")
  let lo ← Check.present lo (.ofString "copyOfRange(..., null, ...)")
  let hi ← Check.present hi (.ofString "copyOfRange(..., null)")
  Check.indexRange lo hi (.ofNat s.size)
  let lo := lo.truncate.toNat
  let hi := hi.truncate.toNat
  return (s.toCells.drop lo).take (hi - lo)

/-- Three-way comparison of two numbers: `-1`, `0` or `1`. Absent operands are refused first
(`a`, then `b`), then NaN operands (`a`, then `b`); `-0` and `+0` are equal. -/
def compareNumbers (a b : Option Binary64) : Except Fault Int := do
  let a ← Check.present a (.ofString "compare(null, ...)")
  let b ← Check.present b (.ofString "compare(..., null)")
  let nanFault (param : String) (x : Binary64) : Fault :=
    .argumentRange (.ofString param) (some (.number x))
      (.ofString "compare() operands must not be NaN")
  if a.isNaN then throw (nanFault "a" a)
  if b.isNaN then throw (nanFault "b" b)
  return if a.lt b then -1 else if a.gt b then 1 else 0

end Transcode
