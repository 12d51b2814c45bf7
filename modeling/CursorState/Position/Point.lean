/-! Cursor coordinates in reading order. -/
namespace CursorState

/-- A row and a column, both counted in 32-bit words. Whether the first row is 0 or 1 depends on
the caller: cursors are counted from 1, positions in a text from 0. -/
structure Point where
  row : UInt32
  column : UInt32
  deriving DecidableEq, Repr, Inhabited

namespace Point

def origin : Point := ⟨0, 0⟩

/-- Reading order: the row decides, then the column. -/
instance : LE Point where
  le p q := p.row < q.row ∨ p.row = q.row ∧ p.column ≤ q.column

theorem le_def {p q : Point} : p ≤ q ↔ p.row < q.row ∨ p.row = q.row ∧ p.column ≤ q.column :=
  Iff.rfl

instance (p q : Point) : Decidable (p ≤ q) :=
  inferInstanceAs (Decidable (_ ∨ _))

def compare (p q : Point) : Ordering :=
  (Ord.compare p.row q.row).then (Ord.compare p.column q.column)

/-- One less, and 0 stays 0. -/
def before (n : UInt32) : UInt32 :=
  if n = 0 then 0 else n - 1

@[simp] theorem before_zero : before 0 = 0 := rfl

theorem toNat_before (n : UInt32) : (before n).toNat = n.toNat - 1 := by
  unfold before
  split
  · next h => simp [h]
  · next h =>
    have hn : n.toNat ≠ 0 := fun h' => h (UInt32.toNat_inj.1 (by simpa using h'))
    rw [UInt32.toNat_sub_of_le _ _ (by rw [UInt32.le_iff_toNat_le]; simp; omega)]
    simp

/-- The position, counted from 0, of a cursor that is counted from 1: the text strictly before it
is what gets parsed. -/
def target (cursor : Point) : Point :=
  ⟨before cursor.row, before cursor.column⟩

@[simp] theorem target_origin : target origin = origin := rfl

def display (p : Point) : String :=
  s!"{p.row.toNat}:{p.column.toNat}"

end Point
end CursorState
