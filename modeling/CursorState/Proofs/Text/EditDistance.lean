import Mathlib.Data.List.TakeDrop
import CursorState.Proofs.Text.Edits

/-! The table of the edit distance: what its row holds while it is updated in place, and what it
holds in the end. -/
namespace CursorState.Text

structure HoldsDistances (target source : List Char) (row : Array Nat) : Prop where
  size : row.size = target.length + 1
  cells : ∀ k ≤ target.length, row.getD k 0 = distance source (target.take k)

/-- The row is updated for `a` behind `source` up to cell `j`: the cells from there on are still the
old ones, and so is the value that stands diagonally above the next one. -/
structure UpdatedTo (target source : List Char) (a : Char) (j : Nat) (r : EditRow) : Prop where
  size : r.cells.size = target.length + 1
  updated : ∀ k ≤ j, r.cells.getD k 0 = distance (source ++ [a]) (target.take k)
  old : ∀ k, j < k → k ≤ target.length → r.cells.getD k 0 = distance source (target.take k)
  diagonal : r.diagonal = distance source (target.take j)

theorem getD_setIfInBounds {cells : Array Nat} {j k value : Nat} (h : j < cells.size) :
    (cells.setIfInBounds j value).getD k 0 = if j = k then value else cells.getD k 0 := by
  simp only [Array.getD_eq_getD_getElem?, Array.getElem?_setIfInBounds]
  by_cases hk : j = k
  · subst hk
    simp [h]
  · simp [hk]

variable {target source : List Char} {a b : Char} {j : Nat} {r : EditRow} {row : Array Nat}

namespace UpdatedTo

theorem start (h : HoldsDistances target source row) :
    UpdatedTo target source a 0
      ⟨row.setIfInBounds 0 (source.length + 1), row.getD 0 0⟩ where
  size := by rw [Array.size_setIfInBounds, h.size]
  updated k hk := by
    have hsize : 0 < row.size := h.size ▸ Nat.succ_pos _
    obtain rfl := Nat.le_zero.mp hk
    rw [getD_setIfInBounds hsize, if_pos rfl]
    simp
  old k hk hle := by
    have hsize : 0 < row.size := h.size ▸ Nat.succ_pos _
    rw [getD_setIfInBounds hsize, if_neg hk.ne, h.cells k hle]
  diagonal := h.cells 0 (Nat.zero_le _)

/-- The new cell comes from the three that the recursion asks for: the kept one, the one that was
written last, and the one that it overwrites. -/
theorem update (h : UpdatedTo target source a j r) (hb : target[j]? = some b) :
    UpdatedTo target source a (j + 1) (r.update a (b, j)) := by
  have hj : j < target.length := (List.getElem?_eq_some_iff.mp hb).1
  have hsize : j + 1 < r.cells.size := h.size ▸ Nat.succ_lt_succ hj
  have habove := h.old (j + 1) (Nat.lt_succ_self j) hj
  have hleft := h.updated j (Nat.le_refl j)
  have htake : target.take (j + 1) = target.take j ++ [b] := by
    rw [List.take_add_one, hb, Option.toList_some]
  refine ⟨?_, fun k hk => ?_, fun k hk hle => ?_, habove⟩
  · rw [EditRow.update, Array.size_setIfInBounds, h.size]
  · rw [EditRow.update, getD_setIfInBounds hsize]
    rcases Nat.le_succ_iff.mp hk with hk | rfl
    · rw [if_neg (Nat.lt_succ_of_le hk).ne', h.updated k hk]
    · rw [if_pos rfl, htake, distance_concat_concat, h.diagonal, hleft, habove, htake]
  · rw [EditRow.update, getD_setIfInBounds hsize, if_neg hk.ne, h.old k (Nat.lt_of_succ_lt hk) hle]

theorem foldl_update {before rest : List Char} (htarget : target = before ++ rest)
    (h : UpdatedTo target source a before.length r) :
    UpdatedTo target source a target.length
      ((rest.zipIdx before.length).foldl (EditRow.update a) r) := by
  -- on the rest of the target, with the row updated up to where it starts
  induction rest generalizing before r with
  | nil => simpa [htarget] using h
  | cons b rest ih =>
    have hb : target[before.length]? = some b := by simp [htarget]
    have hnext : UpdatedTo target source a (before ++ [b]).length (r.update a (b, before.length)) := by
      simpa using h.update hb
    have hrest := ih (htarget.trans (List.append_cons before b rest)) hnext
    rwa [List.length_append, List.length_singleton] at hrest

end UpdatedTo

namespace HoldsDistances

theorem start (target : List Char) :
    HoldsDistances target [] (Array.range (target.length + 1)) where
  size := Array.size_range
  cells k hk := by
    have hlt : k < target.length + 1 := Nat.lt_succ_of_le hk
    simp [Array.getD_eq_getD_getElem?, hlt, hk]

theorem nextRow (h : HoldsDistances target source row) (a : Char) :
    HoldsDistances target (source ++ [a]) (nextRow target row (a, source.length)) := by
  have hstart : UpdatedTo target source a ([] : List Char).length _ := UpdatedTo.start h
  have hend := hstart.foldl_update (List.nil_append target).symm
  exact ⟨hend.size, hend.updated⟩

theorem foldl_nextRow {rest : List Char} (h : HoldsDistances target source row) :
    HoldsDistances target (source ++ rest)
      ((rest.zipIdx source.length).foldl (Text.nextRow target) row) := by
  induction rest generalizing source row with
  | nil => simpa using h
  | cons a rest ih =>
    have hrest := ih (h.nextRow a)
    rwa [List.length_append, List.length_singleton, ← List.append_cons] at hrest

end HoldsDistances

theorem editDistance_eq_distance (source target : List Char) :
    editDistance source target = distance source target := by
  have h : HoldsDistances target source _ := (HoldsDistances.start target).foldl_nextRow
  have hlast := h.cells target.length (Nat.le_refl _)
  rwa [List.take_length] at hlast

/-- The edit distance is the least number of edits of one character that turn one text into the
other, and it is what the recursive definition says. -/
theorem editDistance_isLeast_edits (source target : List Char) :
    IsLeast {n | Edits n source target} (editDistance source target) ∧
      editDistance source target = distance source target := by
  rw [editDistance_eq_distance]
  exact ⟨isLeast_distance source target, rfl⟩

/-- Two letters are exchanged. -/
example : editDistance "jsno".toList "json".toList = 2 := by decide

end CursorState.Text
