import Mathlib.Data.List.Nodup
import CursorState.StateTable.Basic

/-! What appending to a table changes: the items of one state, and the states only by a new one at
the end. -/
namespace CursorState

theorem map_fst_appendItems (id : StateId) (items : List StateItem)
    (entries : List (StateId × List StateItem)) :
    (appendItems id items entries).map Prod.fst =
      if id ∈ entries.map Prod.fst then entries.map Prod.fst else entries.map Prod.fst ++ [id] := by
  induction entries with
  | nil => rfl
  | cons entry rest ih =>
    rw [appendItems]
    by_cases h : entry.1 = id
    · simp [h]
    · rw [if_neg h, List.map_cons, ih, List.map_cons]
      by_cases hm : id ∈ rest.map Prod.fst
      · rw [if_pos hm, if_pos (List.mem_cons_of_mem _ hm)]
      · have hm' : id ∉ entry.1 :: rest.map Prod.fst := by
          simpa [eq_comm] using And.intro h (by simpa using hm)
        rw [if_neg hm, if_neg hm', List.cons_append]

theorem lookup_appendItems (id id' : StateId) (items : List StateItem)
    (entries : List (StateId × List StateItem)) :
    (appendItems id items entries).lookup id' =
      if id' = id then some ((entries.lookup id).getD [] ++ items) else entries.lookup id' := by
  induction entries with
  | nil =>
    rw [appendItems, List.lookup_cons]
    by_cases h : id' = id
    · simp [h]
    · simp [h, beq_eq_false_iff_ne.mpr h]
  | cons entry rest ih =>
    obtain ⟨key, old⟩ := entry
    rw [appendItems]
    by_cases h : key = id
    · subst h
      rw [if_pos rfl, List.lookup_cons_self, List.lookup_cons, List.lookup_cons]
      by_cases h' : id' = key
      · simp [h']
      · simp [h', beq_eq_false_iff_ne.mpr h']
    · have hne : (id == key) = false := beq_eq_false_iff_ne.mpr (Ne.symm h)
      rw [if_neg h, List.lookup_cons, ih, List.lookup_cons, List.lookup_cons, hne]
      by_cases h' : id' = key
      · simp [h', h]
      · simp [beq_eq_false_iff_ne.mpr h']

namespace StateTable

variable (t : StateTable) (id : StateId) (items : List StateItem)

theorem ids_append :
    (t.append id items).ids = if id ∈ t.ids then t.ids else t.ids ++ [id] :=
  map_fst_appendItems id items t.entries

theorem ids_append_of_mem {t : StateTable} {id : StateId} (h : id ∈ t.ids) :
    (t.append id items).ids = t.ids := by
  rw [ids_append, if_pos h]

theorem ids_append_of_notMem {t : StateTable} {id : StateId} (h : id ∉ t.ids) :
    (t.append id items).ids = t.ids ++ [id] := by
  rw [ids_append, if_neg h]

theorem nodup_ids_append {t : StateTable} (h : t.ids.Nodup) : (t.append id items).ids.Nodup := by
  by_cases hm : id ∈ t.ids
  · rwa [ids_append_of_mem items hm]
  · rw [ids_append_of_notMem items hm, List.nodup_append]
    refine ⟨h, List.nodup_singleton id, fun a ha b hb => ?_⟩
    rw [List.mem_singleton.mp hb]
    exact ne_of_mem_of_not_mem ha hm

theorem items?_append_self :
    (t.append id items).items? id = some ((t.items? id).getD [] ++ items) := by
  rw [items?, append, lookup_appendItems, if_pos rfl, items?]

theorem items?_append_of_ne {id' : StateId} (h : id' ≠ id) :
    (t.append id items).items? id' = t.items? id' := by
  rw [items?, append, lookup_appendItems, if_neg h, items?]

theorem getD_items?_append (id' : StateId) :
    ((t.append id items).items? id').getD [] =
      (t.items? id').getD [] ++ if id' = id then items else [] := by
  by_cases h : id' = id
  · subst h
    rw [items?_append_self, Option.getD_some, if_pos rfl]
  · rw [items?_append_of_ne t id items h, if_neg h, List.append_nil]

theorem items?_eq_some_of_mem {t : StateTable} {entry : StateId × List StateItem}
    (hn : t.ids.Nodup) (h : entry ∈ t.entries) : t.items? entry.1 = some entry.2 := by
  obtain ⟨entries⟩ := t
  simp only [ids, items?] at hn h ⊢
  induction entries with
  | nil => cases h
  | cons e rest ih =>
    rw [List.map_cons, List.nodup_cons] at hn
    rcases List.mem_cons.mp h with rfl | h
    · exact List.lookup_cons_self
    · have hne : entry.1 ≠ e.1 := ne_of_mem_of_not_mem (List.mem_map_of_mem h) hn.1
      rw [List.lookup_cons, beq_eq_false_iff_ne.mpr hne]
      exact ih hn.2 h

end StateTable
end CursorState
