import Mathlib.Data.List.Perm.Subperm
import CursorState.Proofs.StateTable.Append

/-! Equality of tables up to the order of their states. Where no state stands twice, it says that
both tables give the same items for each state. -/
namespace CursorState
namespace StateTable

variable {t u : StateTable} {id : StateId} {items : List StateItem}

theorem items?_eq_none_iff : t.items? id = none ↔ id ∉ t.ids := by
  simp only [items?, List.lookup_eq_none_iff, ids, List.mem_map, bne_iff_ne, not_exists, not_and]
  exact forall₂_congr fun _ _ => ne_comm

theorem items?_eq_some_iff (h : t.ids.Nodup) : t.items? id = some items ↔ (id, items) ∈ t.entries := by
  constructor
  · intro hitems
    obtain ⟨before, after, hentries, -⟩ := List.lookup_eq_some_iff.mp hitems
    simp [hentries]
  · exact items?_eq_some_of_mem h

theorem items?_eq_of_getD (hids : id ∈ t.ids ↔ id ∈ u.ids)
    (hitems : (t.items? id).getD [] = (u.items? id).getD []) : t.items? id = u.items? id := by
  have hnone : t.items? id = none ↔ u.items? id = none := by
    rw [items?_eq_none_iff, items?_eq_none_iff, hids]
  cases ht : t.items? id with
  | none => exact (hnone.mp ht).symm
  | some xs =>
    cases hu : u.items? id with
    | none =>
      rw [hnone.mpr hu] at ht
      cases ht
    | some ys =>
      rw [ht, hu] at hitems
      exact congrArg some hitems

theorem getElem?_ofList_entries (h : t.ids.Nodup) (id : StateId) :
    (Std.HashMap.ofList t.entries)[id]? = t.items? id := by
  cases hitems : t.items? id with
  | none =>
    have hid : t.ids.contains id = false := by simpa using items?_eq_none_iff.mp hitems
    exact Std.HashMap.getElem?_ofList_of_contains_eq_false hid
  | some items =>
    have hapart : t.entries.Pairwise fun a b => (a.1 == b.1) = false :=
      (List.pairwise_map.mp h).imp beq_eq_false_iff_ne.mpr
    exact Std.HashMap.getElem?_ofList_of_mem BEq.rfl hapart
      ((items?_eq_some_iff h).mp hitems)

theorem same_eq_true_iff (hu : u.ids.Nodup) :
    t.same u ↔ t.size = u.size ∧ ∀ entry ∈ t.entries, u.items? entry.1 = some entry.2 := by
  simp only [same, Bool.and_eq_true, beq_iff_eq, List.all_eq_true, getElem?_ofList_entries hu]

/-- As many states and the same items for those of one table: then there are no others. -/
theorem same_iff (ht : t.ids.Nodup) (hu : u.ids.Nodup) :
    t.same u ↔ ∀ id, t.items? id = u.items? id := by
  rw [same_eq_true_iff hu]
  constructor
  · rintro ⟨hsize, hitems⟩ id
    have hsub : t.ids ⊆ u.ids := fun id hid => by
      obtain ⟨entry, hentry, rfl⟩ := List.mem_map.mp hid
      by_contra hno
      have hnone := items?_eq_none_iff.mpr hno
      rw [hitems entry hentry] at hnone
      cases hnone
    -- among as many states that do not repeat, there are no others
    have hperm : t.ids.Perm u.ids := by
      refine (ht.subperm hsub).perm_of_length_le ?_
      rw [ids, ids, List.length_map, List.length_map]
      exact Nat.le_of_eq hsize.symm
    by_cases hid : id ∈ t.ids
    · obtain ⟨entry, hentry, rfl⟩ := List.mem_map.mp hid
      rw [items?_eq_some_of_mem ht hentry, hitems entry hentry]
    · rw [items?_eq_none_iff.mpr hid, items?_eq_none_iff.mpr (mt hperm.mem_iff.mpr hid)]
  · intro h
    have hmem (id : StateId) : id ∈ t.ids ↔ id ∈ u.ids := by
      rw [← not_iff_not, ← items?_eq_none_iff, ← items?_eq_none_iff, h]
    have hperm : t.ids.Perm u.ids := (List.perm_ext_iff_of_nodup ht hu).mpr hmem
    refine ⟨?_, fun entry hentry => ?_⟩
    · simpa [ids, size] using hperm.length_eq
    · rw [← h, items?_eq_some_of_mem ht hentry]

/-- A length check and a search in one direction only, and yet it goes both ways. -/
theorem same_equivalence :
    Equivalence fun t u : { t : StateTable // t.ids.Nodup } => t.val.same u.val = true where
  refl t := (same_iff t.property t.property).mpr fun _ => rfl
  symm {t u} h := by
    rw [same_iff t.property u.property] at h
    exact (same_iff u.property t.property).mpr fun id => (h id).symm
  trans {t u v} h h' := by
    rw [same_iff t.property u.property] at h
    rw [same_iff u.property v.property] at h'
    exact (same_iff t.property v.property).mpr fun id => (h id).trans (h' id)

end StateTable
end CursorState
