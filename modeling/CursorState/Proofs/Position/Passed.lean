import CursorState.Proofs.Position.Cut

/-! The units that a walk passes, in exact places: they are the first units of a text, as many as
start before the target, and their length is the byte offset. -/
namespace CursorState

@[simp] theorem unitsSize_append (us vs : List TextUnit) :
    unitsSize (us ++ vs) = unitsSize us + unitsSize vs := by
  induction us with
  | nil => exact (Nat.zero_add _).symm
  | cons u us ih => rw [List.cons_append, unitsSize_cons, unitsSize_cons, ih, Nat.add_assoc]

/-- The units before the first that starts at or past `target`, from `p` on. -/
def passed (w : TabWidth) (target : Place) : Place → List TextUnit → List TextUnit
  | _, [] => []
  | p, u :: us => if target ≤ p then [] else u :: passed w target (p.advance w u) us

section
variable {w : TabWidth} {target p : Place}

@[simp] theorem passed_nil : passed w target p [] = [] := rfl

theorem passed_of_le (h : target ≤ p) (us : List TextUnit) : passed w target p us = [] := by
  cases us <;> simp [passed, h]

theorem passed_cons (h : ¬ target ≤ p) (u : TextUnit) (us : List TextUnit) :
    passed w target p (u :: us) = u :: passed w target (p.advance w u) us :=
  if_neg h

end

theorem passed_prefix (w : TabWidth) (target p : Place) (us : List TextUnit) :
    passed w target p us <+: us := by
  induction us generalizing p with
  | nil => exact List.prefix_refl []
  | cons u us ih =>
    by_cases h : target ≤ p
    · rw [passed_of_le h]
      exact List.nil_prefix
    · rw [passed_cons h]
      exact (List.prefix_cons_inj u).mpr (ih _)

/-- Two walks pass corresponding units if they go through corresponding places and stop at the same
ones. -/
theorem passed_map {v w : TabWidth} {target target' : Place} {f : TextUnit → TextUnit}
    {g : Place → Place} {us : List TextUnit} (hle : ∀ p, target' ≤ g p ↔ target ≤ p)
    (hstep : ∀ p, ∀ u ∈ us, (g p).advance w (f u) = g (p.advance v u)) (p : Place) :
    passed w target' (g p) (us.map f) = (passed v target p us).map f := by
  induction us generalizing p with
  | nil => rfl
  | cons u us ih =>
    have hu := hstep p u (List.mem_cons_self ..)
    by_cases h : target ≤ p
    · rw [passed_of_le h, passed_of_le ((hle p).mpr h), List.map_nil]
    · rw [List.map_cons, passed_cons (mt (hle p).mp h), passed_cons h, List.map_cons, hu,
        ih fun p u hmem => hstep p u (List.mem_cons_of_mem _ hmem)]

/-- As long as the rows fit, the walk in words is as long as what is passed. -/
theorem walk_eq_unitsSize_passed {w : TabWidth} {target q : Point} {p : Place}
    {us : List TextUnit} (hq : q.Shows p) (hrows : p.row + unitsSize us < UInt32.size) :
    walk w target q us = unitsSize (passed w target.place p us) := by
  induction us generalizing q p with
  | nil => rfl
  | cons u us ih =>
    by_cases h : target.place ≤ p
    · rw [walk_of_le ((hq.le_iff target).mpr h), passed_of_le h, unitsSize_nil]
    · rw [unitsSize_cons] at hrows
      have hnext := hq.advance w u (by omega)
      have hrow := p.row_advance_le w u
      rw [walk_cons fun hle => h ((hq.le_iff target).mp hle), passed_cons h, unitsSize_cons,
        ih hnext (by omega)]

section
variable {text : List UInt8} (target : Point) (w : TabWidth) (h : text.length < UInt32.size)
include h

theorem byteOffset_eq_unitsSize_passed :
    byteOffset text target w = unitsSize (passed w target.place .origin (units text)) := by
  refine walk_eq_unitsSize_passed .origin ?_
  rwa [unitsSize_units, Place.origin, Nat.zero_add]

theorem units_take_byteOffset :
    units (text.take (byteOffset text target w)) =
      passed w target.place .origin (units text) := by
  obtain ⟨after, hafter⟩ := passed_prefix w target.place .origin (units text)
  rw [byteOffset_eq_unitsSize_passed target w h]
  exact units_take hafter.symm

end

end CursorState
