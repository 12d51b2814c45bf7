import CursorState.Proofs.StateTable.Append

/-! What merging a table into another gives: the states of both in the order in which they come up,
each with its items in both. -/
namespace CursorState
namespace StateTable

theorem append_append (t : StateTable) (id : StateId) (xs ys : List StateItem) :
    (t.append id xs).append id ys = t.append id (xs ++ ys) := by
  obtain ⟨entries⟩ := t
  simp only [append]
  congr 1
  induction entries with
  | nil => simp [appendItems]
  | cons entry rest ih =>
    by_cases h : entry.1 = id
    · simp [appendItems, h]
    · simp [appendItems, h, ih]

theorem entries_eq_map_ids {t : StateTable} (h : t.ids.Nodup) :
    t.entries = t.ids.map fun id => (id, (t.items? id).getD []) := by
  rw [ids, List.map_map]
  conv_lhs => rw [← List.map_id t.entries]
  refine List.map_congr_left fun entry he => ?_
  simp [items?_eq_some_of_mem h he]

theorem merge_cons (t : StateTable) (entry : StateId × List StateItem)
    (entries : List (StateId × List StateItem)) :
    t.merge ⟨entry :: entries⟩ = (t.append entry.1 entry.2).merge ⟨entries⟩ := rfl

theorem nodup_ids_merge {t : StateTable} (h : t.ids.Nodup) (u : StateTable) :
    (t.merge u).ids.Nodup := by
  obtain ⟨entries⟩ := u
  induction entries generalizing t with
  | nil => exact h
  | cons entry entries ih =>
    rw [merge_cons]
    exact ih (nodup_ids_append entry.1 entry.2 h)

theorem ids_append_eq_eraseDups {t : StateTable} {seen : List StateId}
    (h : t.ids = seen.eraseDups) (id : StateId) (items : List StateItem) :
    (t.append id items).ids = (seen ++ [id]).eraseDups := by
  rw [List.eraseDups_append, ids_append, h]
  by_cases hm : id ∈ seen
  · simp [hm, List.removeAll]
  · simp [hm, List.removeAll, List.eraseDups_cons]

theorem ids_merge {t : StateTable} {seen : List StateId} (h : t.ids = seen.eraseDups)
    (u : StateTable) : (t.merge u).ids = (seen ++ u.ids).eraseDups := by
  obtain ⟨entries⟩ := u
  induction entries generalizing t seen with
  | nil => simpa [ids, merge] using h
  | cons entry entries ih =>
    rw [merge_cons, ih (ids_append_eq_eraseDups h entry.1 entry.2), List.append_assoc]
    rfl

theorem getD_items?_merge (t u : StateTable) (id : StateId) :
    ((t.merge u).items? id).getD [] =
      (t.items? id).getD [] ++ (u.entries.filter fun entry => entry.1 = id).flatMap Prod.snd := by
  obtain ⟨entries⟩ := u
  induction entries generalizing t with
  | nil => simp [merge]
  | cons entry entries ih =>
    rw [merge_cons, ih, getD_items?_append]
    by_cases h : id = entry.1
    · simp [h]
    · simp [h, Ne.symm h]

theorem eq_of_ids_of_items {t u : StateTable} (ht : t.ids.Nodup) (hids : u.ids = t.ids)
    (hitems : ∀ id, (u.items? id).getD [] = (t.items? id).getD []) : u = t := by
  have hu : u.ids.Nodup := hids ▸ ht
  have hentries : u.entries = t.entries := by
    rw [entries_eq_map_ids hu, entries_eq_map_ids ht, hids]
    exact List.map_congr_left fun id _ => by rw [hitems]
  rwa [← mk.injEq] at hentries

theorem flatMap_filter_entries {u : StateTable} (hu : u.ids.Nodup) (id : StateId) :
    (u.entries.filter fun entry => entry.1 = id).flatMap Prod.snd = (u.items? id).getD [] := by
  obtain ⟨entries⟩ := u
  simp only [ids, items?] at hu ⊢
  induction entries with
  | nil => rfl
  | cons entry rest ih =>
    rw [List.map_cons, List.nodup_cons] at hu
    by_cases h : id = entry.1
    · subst h
      have hrest : rest.filter (fun e => e.1 = entry.1) = [] := by
        rw [List.filter_eq_nil_iff]
        intro e he heq
        exact hu.1 (of_decide_eq_true heq ▸ List.mem_map_of_mem he)
      rw [List.filter_cons_of_pos (by simp), hrest, List.lookup_cons_self]
      simp
    · rw [List.filter_cons_of_neg (by simpa using Ne.symm h), ih hu.2, List.lookup_cons,
        beq_eq_false_iff_ne.mpr h]

theorem eraseDups_of_nodup {ids : List StateId} (h : ids.Nodup) : ids.eraseDups = ids := by
  induction ids with
  | nil => rfl
  | cons id ids ih =>
    obtain ⟨hid, hids⟩ := List.nodup_cons.mp h
    have hkeep : ids.filter (fun id' => !id' == id) = ids := by
      rw [List.filter_eq_self]
      intro id' hid'
      simpa using ne_of_mem_of_not_mem hid' hid
    rw [List.eraseDups_cons, hkeep, ih hids]

theorem items_merge (t : StateTable) {u : StateTable} (hu : u.ids.Nodup) (id : StateId) :
    ((t.merge u).items? id).getD [] = (t.items? id).getD [] ++ (u.items? id).getD [] := by
  rw [getD_items?_merge, flatMap_filter_entries hu]

section Nodup
variable {t u : StateTable} (ht : t.ids.Nodup) (hu : u.ids.Nodup)
include ht hu

theorem ids_merge_of_nodup : (t.merge u).ids = t.ids ++ u.ids.filter (· ∉ t.ids) := by
  have hnew : u.ids.removeAll t.ids = u.ids.filter (· ∉ t.ids) :=
    List.filter_congr fun id _ => by simp
  rw [ids_merge (eraseDups_of_nodup ht).symm, List.eraseDups_append, hnew, eraseDups_of_nodup ht,
    eraseDups_of_nodup (hu.filter _)]

/-- The states of the first table, then the new ones of the second, each with the items of both. -/
theorem entries_merge :
    (t.merge u).entries = (t.ids ++ u.ids.filter (· ∉ t.ids)).map fun id =>
      (id, (t.items? id).getD [] ++ (u.items? id).getD []) := by
  rw [entries_eq_map_ids (nodup_ids_merge ht u), ids_merge_of_nodup ht hu]
  exact List.map_congr_left fun id _ => by rw [items_merge t hu]

theorem merge_append (id : StateId) (items : List StateItem) :
    t.merge (u.append id items) = (t.merge u).append id items := by
  have hu' := nodup_ids_append id items hu
  refine eq_of_ids_of_items (nodup_ids_append id items (nodup_ids_merge ht u)) ?_ fun id' => ?_
  · rw [ids_merge_of_nodup ht hu', ids_append, ids_append, ids_merge_of_nodup ht hu]
    by_cases hid : id ∈ t.ids <;> by_cases hid' : id ∈ u.ids <;> simp [hid, hid']
  · rw [items_merge t hu', getD_items?_append, getD_items?_append, items_merge t hu,
      List.append_assoc]

end Nodup

end StateTable
end CursorState
