/-! The edit distance of two texts, from a table of which a single row is kept. Row `i` holds the
distances of the first `i` characters of the source to the starts of the target, and it is turned
into the next row in place. -/
namespace CursorState.Text

def substitution (a b : Char) : Nat :=
  if a = b then 0 else 1

/-- A row on its way to the next one. The value that was overwritten last is kept: it stands
diagonally above the cell that comes next. -/
structure EditRow where
  cells : Array Nat
  diagonal : Nat

namespace EditRow

/-- Overwrite the cell behind cell `j`, to which character `b` of the target belongs. -/
def update (a : Char) (r : EditRow) : Char × Nat → EditRow
  | (b, j) =>
    let above := r.cells.getD (j + 1) 0
    let left := r.cells.getD j 0
    let cell := min (min (r.diagonal + substitution a b) (left + 1)) (above + 1)
    ⟨r.cells.setIfInBounds (j + 1) cell, above⟩

end EditRow

/-- From row `i` to the next one, for character `a` of the source. -/
def nextRow (target : List Char) (row : Array Nat) : Char × Nat → Array Nat
  | (a, i) =>
    let start : EditRow := ⟨row.setIfInBounds 0 (i + 1), row.getD 0 0⟩
    (target.zipIdx.foldl (EditRow.update a) start).cells

/-- The edit distance: the least number of insertions, deletions and substitutions of one character
that turn `source` into `target`. -/
def editDistance (source target : List Char) : Nat :=
  let first := Array.range (target.length + 1)
  (source.zipIdx.foldl (nextRow target) first).getD target.length 0

end CursorState.Text
