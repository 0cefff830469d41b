/-
  The edit distance: how many insertions, deletions and replacements lead
  from one list to another.

  The table of distances is kept row by row: the row of a front of the first
  list has the distances from it to all fronts of the second.
-/

namespace ObjectLowering.Text

variable {α : Type} [DecidableEq α]

/-- The rest of the row below `row`; `left` is the entry before it. -/
def distanceCells (c : α) : List α → List Nat → Nat → List Nat
  | x :: xs, diagonal :: above :: row, left =>
    let d := if x = c then diagonal else min (min above left) diagonal + 1
    d :: distanceCells c xs (above :: row) d
  | _, _, _ => []

/-- The row below a row. -/
def distanceRow (target : List α) (row : List Nat) (c : α) : List Nat :=
  let first := row.headD 0 + 1
  first :: distanceCells c target row first

/-- The edit distance of two lists. -/
def editDistance (source target : List α) : Nat :=
  (source.foldl (distanceRow target) (List.range (target.length + 1))).getLastD 0

end ObjectLowering.Text
