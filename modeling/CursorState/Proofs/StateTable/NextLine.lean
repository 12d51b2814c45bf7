import CursorState.Proofs.StateTable.Reading

/-! How one more line changes what the lines of a dump say. -/
namespace CursorState

section Lines
variable {Q : List Char → Prop} {lines : List (List Char)} {line : List Char} {id : StateId}
  {i : Nat}

theorem LineAt.lt (h : LineAt Q lines i) : i < lines.length := by
  obtain ⟨line, hi, -⟩ := h
  exact (List.getElem?_eq_some_iff.mp hi).1

theorem lineAt_snoc :
    LineAt Q (lines ++ [line]) i ↔ LineAt Q lines i ∨ i = lines.length ∧ Q line := by
  unfold LineAt
  rcases Nat.lt_trichotomy i lines.length with h | rfl | h
  · rw [List.getElem?_append_left h]
    simp [h.ne]
  · simp
  · rw [List.getElem?_append_right h.le, List.getElem?_eq_none h.le]
    simp [h.ne', Nat.sub_eq_zero_iff_le, h.not_ge]

theorem LineAt.snoc (h : LineAt Q lines i) : LineAt Q (lines ++ [line]) i :=
  lineAt_snoc.mpr (.inl h)

theorem lineAt_append_of_lt {more : List (List Char)} (h : i < lines.length) :
    LineAt Q (lines ++ more) i ↔ LineAt Q lines i := by
  rw [LineAt, List.getElem?_append_left h, LineAt]

theorem under_snoc_of_le (h : i ≤ lines.length) :
    Under (lines ++ [line]) id i ↔ Under lines id i := by
  unfold Under
  refine exists_congr fun j => and_congr_right fun hj => ?_
  rw [lineAt_append_of_lt (hj.trans_le h)]
  refine and_congr_right fun _ => forall_congr' fun k => forall_congr' fun _ => ?_
  refine forall_congr' fun hk => not_congr ?_
  rw [lineAt_append_of_lt (hk.trans_le h)]

theorem under_snoc_of_header (h : IsHeader line) :
    Under (lines ++ [line]) id (lines.length + 1) ↔ NamesState id line := by
  constructor
  · rintro ⟨j, hj, hnames, hlast⟩
    rcases lineAt_snoc.mp hnames with hold | ⟨-, hnames⟩
    · exact absurd (lineAt_snoc.mpr (.inr ⟨rfl, h⟩))
        (hlast lines.length hold.lt (Nat.lt_succ_self _))
    · exact hnames
  · intro hnames
    exact ⟨lines.length, Nat.lt_succ_self _, lineAt_snoc.mpr (.inr ⟨rfl, hnames⟩),
      fun k hk hk' => absurd hk' (by omega)⟩

theorem under_snoc_of_not_header (h : ¬ IsHeader line) :
    Under (lines ++ [line]) id (lines.length + 1) ↔ Under lines id lines.length := by
  rw [← @under_snoc_of_le lines line id _ (Nat.le_refl _)]
  constructor
  · rintro ⟨j, hj, hnames, hlast⟩
    have hlt : j < lines.length := by
      rcases lineAt_snoc.mp hnames with hold | ⟨-, hnames⟩
      · exact hold.lt
      · exact absurd hnames.isHeader h
    exact ⟨j, hlt, hnames, fun k hk hk' => hlast k hk (hk'.trans (Nat.lt_succ_self _))⟩
  · rintro ⟨j, hj, hnames, hlast⟩
    refine ⟨j, hj.trans (Nat.lt_succ_self _), hnames, fun k hk hk' hhead => ?_⟩
    rcases lineAt_snoc.mp hhead with hold | ⟨-, hnew⟩
    · exact hlast k hk hold.lt hhead
    · exact h hnew

theorem opens_snoc :
    Opens (lines ++ [line]) i ↔ Opens lines i ∨
      i = lines.length ∧ ∃ id, NamesState id line ∧ ∀ j, ¬ LineAt (NamesState id) lines j := by
  constructor
  · rintro ⟨id, hnames, hfirst⟩
    have hfirst' : ∀ j < i, ¬ LineAt (NamesState id) lines j := fun j hj hold =>
      hfirst j hj hold.snoc
    rcases lineAt_snoc.mp hnames with hold | ⟨rfl, hnew⟩
    · exact .inl ⟨id, hold, hfirst'⟩
    · exact .inr ⟨rfl, id, hnew, fun j hj => hfirst' j hj.lt hj⟩
  · rintro (⟨id, hold, hfirst⟩ | ⟨rfl, id, hnew, hnone⟩)
    · refine ⟨id, hold.snoc, fun j hj hj' => hfirst j hj ?_⟩
      exact (lineAt_append_of_lt (hj.trans hold.lt)).mp hj'
    · refine ⟨id, lineAt_snoc.mpr (.inr ⟨rfl, hnew⟩), fun j hj hj' => hnone j ?_⟩
      exact (lineAt_append_of_lt hj).mp hj'

theorem belongsTo_snoc :
    BelongsTo (lines ++ [line]) id i ↔ BelongsTo lines id i ∨
      i = lines.length ∧ IsItem line ∧ Under lines id lines.length := by
  unfold BelongsTo
  rw [lineAt_snoc, or_and_right]
  constructor
  · rintro (⟨hold, hunder⟩ | ⟨⟨rfl, hnew⟩, hunder⟩)
    · exact .inl ⟨hold, (under_snoc_of_le hold.lt.le).mp hunder⟩
    · exact .inr ⟨rfl, hnew, (under_snoc_of_le (Nat.le_refl _)).mp hunder⟩
  · rintro (⟨hold, hunder⟩ | ⟨rfl, hnew, hunder⟩)
    · exact .inl ⟨hold, (under_snoc_of_le hold.lt.le).mpr hunder⟩
    · exact .inr ⟨⟨rfl, hnew⟩, (under_snoc_of_le (Nat.le_refl _)).mpr hunder⟩

theorem headers_snoc (h : ∀ i, LineAt IsHeader lines i → ∃ id, LineAt (NamesState id) lines i)
    (hline : IsHeader line → ∃ id, NamesState id line) :
    ∀ i, LineAt IsHeader (lines ++ [line]) i → ∃ id, LineAt (NamesState id) (lines ++ [line]) i := by
  intro i hi
  rcases lineAt_snoc.mp hi with hold | ⟨rfl, hnew⟩
  · exact (h i hold).imp fun id hid => hid.snoc
  · exact (hline hnew).imp fun id hid => lineAt_snoc.mpr (.inr ⟨rfl, hid⟩)

end Lines

theorem exists_of_forall₂ {α β : Type} {R : α → β → Prop} {xs : List α} {ys : List β} {x : α}
    (h : List.Forall₂ R xs ys) (hx : x ∈ xs) : ∃ y ∈ ys, R x y := by
  induction h with
  | nil => cases hx
  | @cons a b _ _ hab _ ih =>
    rcases List.mem_cons.mp hx with rfl | hx
    · exact ⟨b, List.mem_cons_self, hab⟩
    · obtain ⟨y, hy, hR⟩ := ih hx
      exact ⟨y, List.mem_cons_of_mem _ hy, hR⟩

namespace Lists

variable {α : Type} {P P' : Nat → Prop} {R R' : α → Nat → Prop} {xs : List α} {x : α} {n : Nat}

theorem congr (h : Lists P R xs) (hP : ∀ i, P' i ↔ P i) (hR : ∀ x i, R x i → R' x i) :
    Lists P' R' xs := by
  obtain ⟨indices, hsorted, hmem, hrel⟩ := h
  exact ⟨indices, hsorted, fun i => (hmem i).trans (hP i).symm, hrel.imp hR⟩

theorem snoc (h : Lists P R xs) (hlt : ∀ i, P i → i < n) (hP : ∀ i, P' i ↔ P i ∨ i = n)
    (hR : ∀ x i, R x i → R' x i) (hx : R' x n) : Lists P' R' (xs ++ [x]) := by
  obtain ⟨indices, hsorted, hmem, hrel⟩ := h
  refine ⟨indices ++ [n], ?_, fun i => ?_, ?_⟩
  · rw [List.pairwise_append]
    refine ⟨hsorted, List.pairwise_singleton _ _, fun i hi j hj => ?_⟩
    rw [List.mem_singleton.mp hj]
    exact hlt i ((hmem i).mp hi)
  · rw [List.mem_append, List.mem_singleton, hmem, hP]
  · exact List.rel_append (hrel.imp hR) (.cons hx .nil)

theorem exists_index (h : Lists P R xs) (hx : x ∈ xs) : ∃ i, P i ∧ R x i := by
  obtain ⟨indices, -, hmem, hrel⟩ := h
  obtain ⟨i, hi, hR⟩ := exists_of_forall₂ hrel hx
  exact ⟨i, (hmem i).mp hi, hR⟩

theorem exists_value {i : Nat} (h : Lists P R xs) (hi : P i) : ∃ x ∈ xs, R x i := by
  obtain ⟨indices, -, hmem, hrel⟩ := h
  exact exists_of_forall₂ hrel.flip ((hmem i).mpr hi)

end Lists

end CursorState
