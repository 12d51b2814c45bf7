import CursorState.Position.Point
import CursorState.Position.TabWidth
import CursorState.Position.TextUnit

/-! The byte offset of a position: a walk over the units of a text that stops at the first unit at
or past the position. -/
namespace CursorState

/-- Where a unit leads from `p`. Columns stop at the last 32-bit word. -/
def Point.advance (w : TabWidth) (p : Point) : TextUnit → Point
  | .lineFeed | .carriageReturnLineFeed => ⟨p.row + 1, 0⟩
  | .tab => ⟨p.row, w.nextStop p.column⟩
  | .character _ => ⟨p.row, UInt32.ofNatClamp (p.column.toNat + 1)⟩

/-- The bytes passed before the first unit that starts at or past `target`, from `p` on. -/
def walk (w : TabWidth) (target : Point) : Point → List TextUnit → Nat
  | _, [] => 0
  | p, u :: us => if target ≤ p then 0 else u.size + walk w target (p.advance w u) us

theorem walk_of_le {w : TabWidth} {target p : Point} (h : target ≤ p) (us : List TextUnit) :
    walk w target p us = 0 := by
  cases us <;> simp [walk, h]

theorem walk_cons {w : TabWidth} {target p : Point} (h : ¬ target ≤ p) (u : TextUnit)
    (us : List TextUnit) :
    walk w target p (u :: us) = u.size + walk w target (p.advance w u) us := by
  simp [walk, h]

theorem walk_le (w : TabWidth) (target p : Point) (us : List TextUnit) :
    walk w target p us ≤ unitsSize us := by
  induction us generalizing p with
  | nil => exact Nat.le_refl 0
  | cons u us ih =>
    by_cases h : target ≤ p
    · simp [walk_of_le h]
    · rw [walk_cons h, unitsSize_cons]
      exact Nat.add_le_add_left (ih _) _

/-- The byte offset of `target`, counted from 0. A column past the end of its line falls on the
start of the next line, a row past the last line on the end of the text. -/
def byteOffset (text : List UInt8) (target : Point) (w : TabWidth) : Nat :=
  walk w target .origin (units text)

theorem byteOffset_le_length (text : List UInt8) (target : Point) (w : TabWidth) :
    byteOffset text target w ≤ text.length := by
  simpa [byteOffset] using walk_le w target .origin (units text)

end CursorState
