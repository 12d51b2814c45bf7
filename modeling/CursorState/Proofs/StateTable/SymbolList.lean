import CursorState.Proofs.Text.Trim
import CursorState.StateTable.ItemKey

/-! Lists of symbols between brackets: parts that are joined come back when the text is split at
its commas and trimmed. -/
namespace CursorState
open Text

theorem splitCommas_eq_splitOn (cs : List Char) : splitCommas cs = cs.splitOn ',' := by
  induction cs with
  | nil => rfl
  | cons c cs ih =>
    rw [List.splitOn_cons_eq_if_modifyHead]
    by_cases h : c = ','
    · rw [h, splitCommas, ih, if_pos (beq_self_eq_true _)]
    · obtain ⟨part, parts, hparts⟩ := List.exists_cons_of_ne_nil (List.splitOn_ne_nil ',' cs)
      rw [splitCommas, ih, hparts, if_neg (by simpa using h), List.modifyHead_cons]
      exact h

theorem intercalate_commaSpace (part : List Char) (parts : List (List Char)) :
    [',', ' '].intercalate (part :: parts) = [','].intercalate (part :: parts.map (' ' :: ·)) := by
  induction parts generalizing part with
  | nil => simp
  | cons next parts ih => simp [List.intercalate_cons_cons, ih next]

theorem splitCommas_intercalate {part : List Char} {parts : List (List Char)}
    (h : ∀ p ∈ part :: parts, ',' ∉ p) :
    splitCommas ([',', ' '].intercalate (part :: parts)) = part :: parts.map (' ' :: ·) := by
  rw [splitCommas_eq_splitOn, intercalate_commaSpace]
  refine List.splitOn_intercalate ',' (fun p hp => ?_) (List.cons_ne_nil _ _)
  rcases List.mem_cons.mp hp with rfl | hp
  · exact h p List.mem_cons_self
  · obtain ⟨q, hq, rfl⟩ := List.mem_map.mp hp
    simpa using h q (List.mem_cons_of_mem _ hq)

theorem map_trim_splitCommas {part : List Char} {parts : List (List Char)}
    (hcomma : ∀ p ∈ part :: parts, ',' ∉ p) (htrim : ∀ p ∈ part :: parts, Trimmed p) :
    (splitCommas ([',', ' '].intercalate (part :: parts))).map trim = part :: parts := by
  obtain ⟨hpart, hparts⟩ := List.forall_mem_cons.mp htrim
  rw [splitCommas_intercalate hcomma, List.map_cons, hpart.trim_eq, List.map_map]
  congr 1
  exact (List.map_congr_left fun p hp => (hparts p hp).trim_space_cons).trans (List.map_id _)

theorem symbols_intercalate {parts : List (List Char)} (hcomma : ∀ p ∈ parts, ',' ∉ p)
    (htrim : ∀ p ∈ parts, Trimmed p) :
    symbols ([',', ' '].intercalate parts) =
      parts.filter fun part => !part.isEmpty && !isMarker part := by
  cases parts with
  | nil => rfl
  | cons part parts => rw [symbols, map_trim_splitCommas hcomma htrim]

end CursorState
