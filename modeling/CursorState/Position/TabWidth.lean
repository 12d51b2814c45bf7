/-! Tab stops. -/
namespace CursorState

structure TabWidth where
  columns : UInt32
  columns_ne_zero : columns ≠ 0 := by decide
  deriving DecidableEq, Repr

namespace TabWidth

def standard : TabWidth := ⟨4, by decide⟩

instance : Inhabited TabWidth := ⟨standard⟩

def ofColumns? (columns : UInt32) : Option TabWidth :=
  if h : columns = 0 then none else some ⟨columns, h⟩

@[simp] theorem ofColumns?_zero : ofColumns? 0 = none := rfl

theorem ofColumns?_eq_some {columns : UInt32} {w : TabWidth} :
    ofColumns? columns = some w ↔ w.columns = columns := by
  unfold ofColumns?
  split
  · next h =>
    constructor
    · intro h'
      cases h'
    · intro h'
      exact absurd (h'.trans h) w.columns_ne_zero
  · next h =>
    cases w
    simp [eq_comm]

theorem columns_pos (w : TabWidth) : 0 < w.columns.toNat := by
  have h := w.columns_ne_zero
  refine Nat.pos_of_ne_zero fun h' => h (UInt32.toNat_inj.1 ?_)
  simpa using h'

/-- The first tab stop strictly after `column`, or the last column if that stop lies beyond it. -/
def nextStop (w : TabWidth) (column : UInt32) : UInt32 :=
  UInt32.ofNatClamp ((column.toNat / w.columns.toNat + 1) * w.columns.toNat)

end TabWidth
end CursorState
