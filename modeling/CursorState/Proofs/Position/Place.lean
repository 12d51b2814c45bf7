import Mathlib.Data.Prod.Lex
import Mathlib.Order.Bounds.Defs
import CursorState.Position.Offset

/-! Places: positions in natural numbers, without a last row and a last column. A walk in 32-bit
words keeps the row of its place and shows the column up to the last word. -/
namespace CursorState

@[ext] structure Place where
  row : Nat
  column : Nat
  deriving DecidableEq, Repr

namespace Place

def origin : Place := ⟨0, 0⟩

/-- Reading order: the row decides, then the column. -/
instance : LinearOrder Place :=
  LinearOrder.lift' (fun p => toLex (p.row, p.column)) fun p q h => by
    have h' := toLex.injective h
    exact Place.ext (congrArg Prod.fst h') (congrArg Prod.snd h')

theorem le_def {p q : Place} : p ≤ q ↔ p.row < q.row ∨ p.row = q.row ∧ p.column ≤ q.column :=
  Prod.Lex.toLex_le_toLex

end Place

/-- The same position in natural numbers. -/
def Point.place (p : Point) : Place := ⟨p.row.toNat, p.column.toNat⟩

theorem Point.place_le_place {p q : Point} : p.place ≤ q.place ↔ p ≤ q := by
  rw [Place.le_def, Point.le_def, UInt32.lt_iff_toNat_lt, UInt32.le_iff_toNat_le,
    ← UInt32.toNat_inj]
  exact Iff.rfl

def TabWidth.stopAfter (w : TabWidth) (column : Nat) : Nat :=
  (column / w.columns.toNat + 1) * w.columns.toNat

theorem TabWidth.isLeast_stopAfter (w : TabWidth) (column : Nat) :
    IsLeast {n | w.columns.toNat ∣ n ∧ column < n} (w.stopAfter column) := by
  constructor
  · exact ⟨Nat.dvd_mul_left _ _, Nat.lt_mul_of_div_lt (Nat.lt_succ_self _) w.columns_pos⟩
  · rintro n ⟨⟨k, rfl⟩, h⟩
    have hk : column / w.columns.toNat < k := Nat.div_lt_of_lt_mul h
    rw [TabWidth.stopAfter, Nat.mul_comm]
    exact Nat.mul_le_mul_left _ hk

theorem TabWidth.lt_stopAfter (w : TabWidth) (column : Nat) : column < w.stopAfter column :=
  (w.isLeast_stopAfter column).1.2

def Place.advance (w : TabWidth) (p : Place) : TextUnit → Place
  | .lineFeed | .carriageReturnLineFeed => ⟨p.row + 1, 0⟩
  | .tab => ⟨p.row, w.stopAfter p.column⟩
  | .character _ => ⟨p.row, p.column + 1⟩

theorem Place.row_advance_le (w : TabWidth) (p : Place) (u : TextUnit) :
    (p.advance w u).row ≤ p.row + u.size := by
  cases u <;> simp [Place.advance, TextUnit.size]

theorem toNat_ofNatClamp (n : Nat) :
    (UInt32.ofNatClamp n).toNat = min n (UInt32.size - 1) := by
  unfold UInt32.ofNatClamp
  split
  · next h =>
    rw [UInt32.toNat_ofNatLT]
    omega
  · next h =>
    rw [UInt32.toNat_ofNatLT]
    omega

theorem toNat_add_one {n : UInt32} (h : n.toNat + 1 < UInt32.size) :
    (n + 1).toNat = n.toNat + 1 := by
  rw [UInt32.toNat_add]
  exact Nat.mod_eq_of_lt h

/-- The words of a walk that has come to the place `p`. -/
structure Point.Shows (q : Point) (p : Place) : Prop where
  row : q.row.toNat = p.row
  column : q.column.toNat = min p.column (UInt32.size - 1)

namespace Point.Shows

theorem origin : Point.origin.Shows .origin := ⟨rfl, rfl⟩

variable {q : Point} {p : Place}

/-- No target lies beyond the last column, so a saturated column compares as the true one does. -/
theorem le_iff (h : q.Shows p) (target : Point) : target ≤ q ↔ target.place ≤ p := by
  have hc : target.column.toNat < UInt32.size := target.column.toNat_lt
  rw [← place_le_place, Place.le_def, Place.le_def]
  simp only [place, h.row, h.column]
  omega

/-- A stop past a saturated column lies past the last word, as the true stop does. -/
theorem nextStop (h : q.Shows p) (w : TabWidth) :
    (w.nextStop q.column).toNat = min (w.stopAfter p.column) (UInt32.size - 1) := by
  have hq := w.lt_stopAfter q.column.toNat
  have hp := w.lt_stopAfter p.column
  rw [TabWidth.nextStop, toNat_ofNatClamp]
  change min (w.stopAfter q.column.toNat) _ = _
  by_cases hc : p.column < UInt32.size
  · have he : q.column.toNat = p.column := by
      rw [h.column]
      omega
    rw [he]
  · have he : q.column.toNat = UInt32.size - 1 := by
      rw [h.column]
      omega
    omega

/-- The walk keeps up with the place as long as the rows fit. -/
theorem advance (h : q.Shows p) (w : TabWidth) (u : TextUnit)
    (hr : p.row + u.size < UInt32.size) : (q.advance w u).Shows (p.advance w u) := by
  have hrow : p.row + 1 < UInt32.size := by
    have := u.size_pos
    omega
  have hnext : (q.row + 1).toNat = p.row + 1 := by
    rw [← h.row] at hrow ⊢
    exact toNat_add_one hrow
  cases u with
  | lineFeed => exact ⟨hnext, rfl⟩
  | carriageReturnLineFeed => exact ⟨hnext, rfl⟩
  | tab => exact ⟨h.row, h.nextStop w⟩
  | character n =>
    refine ⟨h.row, ?_⟩
    simp only [Point.advance, Place.advance]
    rw [toNat_ofNatClamp, h.column]
    omega

end Point.Shows
end CursorState
