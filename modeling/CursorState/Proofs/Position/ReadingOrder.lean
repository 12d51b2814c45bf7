import CursorState.Proofs.Position.FirstBoundary

/-! The byte offset keeps reading order: a later target has no smaller offset. It is also an inverse:
the place of a boundary leads back to that boundary. -/
namespace CursorState

theorem Place.lt_def {p q : Place} : p < q ↔ p.row < q.row ∨ p.row = q.row ∧ p.column < q.column :=
  Prod.Lex.toLex_lt_toLex

theorem Place.lt_advance (w : TabWidth) (p : Place) (u : TextUnit) : p < p.advance w u := by
  rw [Place.lt_def]
  cases u with
  | lineFeed => exact .inl (Nat.lt_succ_self _)
  | carriageReturnLineFeed => exact .inl (Nat.lt_succ_self _)
  | tab => exact .inr ⟨rfl, w.lt_stopAfter p.column⟩
  | character n => exact .inr ⟨rfl, Nat.lt_succ_self _⟩

/-- The target that names a place, if the words hold it. -/
def Place.point (p : Place) : Point := ⟨.ofNat p.row, .ofNat p.column⟩

theorem Place.place_point {p : Place} (hrow : p.row < UInt32.size)
    (hcolumn : p.column < UInt32.size) : p.point.place = p :=
  Place.ext (Nat.mod_eq_of_lt hrow) (Nat.mod_eq_of_lt hcolumn)

namespace Boundary

variable {w : TabWidth} {start p q : Place} {text : List UInt8} {o o' : Nat}

theorem start_le (h : Boundary w start text o p) : start ≤ p := by
  induction h with
  | here => exact le_refl _
  | next _ _ ih => exact (Place.lt_advance w _ _).le.trans ih

theorem start_lt (h : Boundary w start text o p) (ho : 0 < o) : start < p := by
  cases h with
  | here => exact absurd ho (Nat.lt_irrefl 0)
  | next _ hb => exact (Place.lt_advance w _ _).trans_le hb.start_le

theorem place_lt (hp : Boundary w start text o p) (hq : Boundary w start text o' q)
    (h : o < o') : p < q := by
  induction hp generalizing o' with
  | here => exact hq.start_lt h
  | next hc _ ih =>
    cases hq with
    | here => exact absurd h (Nat.not_lt_zero _)
    | next hc' hb =>
      obtain ⟨rfl, rfl⟩ := hc.unique hc'
      exact ih hb (Nat.lt_of_add_lt_add_left h)

theorem exists_end (w : TabWidth) (start : Place) (text : List UInt8) :
    ∃ p, Boundary w start text text.length p := by
  induction text using unitInduction generalizing start with
  | nil => exact ⟨start, .here start []⟩
  | unit text u rest hc ih =>
    obtain ⟨p, hp⟩ := ih (start.advance w u)
    rw [hc.length_eq]
    exact ⟨p, .next hc hp⟩

end Boundary

/-- Where the walk to the earlier target goes on, the walk to the later one does so too. -/
theorem walk_le_walk (w : TabWidth) {s t : Point} (h : s ≤ t) (p : Point) (us : List TextUnit) :
    walk w s p us ≤ walk w t p us := by
  induction us generalizing p with
  | nil => exact Nat.le_refl 0
  | cons u us ih =>
    by_cases hs : s ≤ p
    · rw [walk_of_le hs]
      exact Nat.zero_le _
    · have ht : ¬ t ≤ p := fun htp => by
        rw [← Point.place_le_place] at h hs htp
        exact hs (h.trans htp)
      rw [walk_cons hs, walk_cons ht]
      exact Nat.add_le_add_left (ih _) _

/-- The place of a boundary is reached by that boundary and by none before it. -/
theorem isLeast_reaching_place {w : TabWidth} {target : Point} {start p : Place}
    {text : List UInt8} {o : Nat} (hb : Boundary w start text o p) (hp : target.place = p) :
    IsLeast (reaching w target start text) o := by
  refine ⟨⟨p, hb, hp.le⟩, ?_⟩
  rintro o' ⟨q, hq, hle⟩
  by_contra hlt
  exact absurd (hq.place_lt hb (Nat.lt_of_not_le hlt)) (not_lt_of_ge (hp ▸ hle))

theorem byteOffset_place {w : TabWidth} {target : Point} {p : Place} {text : List UInt8} {o : Nat}
    (h : text.length < UInt32.size) (hb : Boundary w .origin text o p) (hp : target.place = p) :
    byteOffset text target w = o := by
  have hrows : Place.origin.row + text.length < UInt32.size := by
    rwa [Place.origin, Nat.zero_add]
  have hleast := isLeast_reaching_place hb hp
  rcases @walk_isLeast_reaching w target _ _ _ .origin hrows with hwalk | ⟨hempty, -⟩
  · exact hwalk.unique hleast
  · exact absurd hleast.1 (hempty ▸ Set.notMem_empty o)

/-- Targets in reading order have their offsets in order, none beyond the text. The boundaries, of
which the end of the text is one, are their own offsets: a target that names the place of a boundary
leads to it. -/
theorem byteOffset_keeps_readingOrder (text : List UInt8) (w : TabWidth)
    (h : text.length < UInt32.size) :
    (∀ s t : Point, s ≤ t →
      byteOffset text s w ≤ byteOffset text t w ∧ byteOffset text t w ≤ text.length) ∧
    (∀ o p, Boundary w .origin text o p → p.row < UInt32.size → p.column < UInt32.size →
      p.point.place = p ∧ byteOffset text p.point w = o) ∧
    ∃ p, Boundary w .origin text text.length p := by
  refine ⟨fun s t hst => ?_, fun o p hb hrow hcolumn => ?_, Boundary.exists_end w .origin text⟩
  · exact ⟨walk_le_walk w hst .origin (units text), byteOffset_le_length text t w⟩
  · have hp := Place.place_point hrow hcolumn
    exact ⟨hp, byteOffset_place h hb hp⟩

/-- A tab, a truncated character and a line end: behind them a line starts at byte 5. -/
theorem byteOffset_keeps_readingOrder_mixed :
    let text : List UInt8 := [0x09, 0xE2, 0x82, 0x0D, 0x0A, 0x80]
    text.length < UInt32.size ∧ (⟨0, 5⟩ : Point) ≤ ⟨1, 0⟩ ∧
      byteOffset text ⟨0, 5⟩ .standard ≤ byteOffset text ⟨1, 0⟩ .standard ∧
      Boundary .standard .origin text 5 ⟨1, 0⟩ ∧ byteOffset text ⟨1, 0⟩ .standard = 5 := by
  intro text
  have hlength : text.length < UInt32.size := by decide
  have hle : (⟨0, 5⟩ : Point) ≤ ⟨1, 0⟩ := by decide
  have hlead : Consumes [0xE2, 0x82, 0x0D, 0x0A, 0x80] (.character 1) [0x0D, 0x0A, 0x80] :=
    @Consumes.lead 0xE2 [0x82] _ (by decide) (by simp) (by simp)
  have hb : Boundary .standard .origin text 5 ⟨1, 0⟩ :=
    .next (o := 4) (.tab _) (.next (o := 2) hlead
      (.next (o := 0) (.carriageReturnLineFeed [0x80]) (.here _ _)))
  obtain ⟨hmono, hplace, -⟩ := byteOffset_keeps_readingOrder text .standard hlength
  exact ⟨hlength, hle, (hmono _ _ hle).1, hb, (hplace 5 ⟨1, 0⟩ hb (by decide) (by decide)).2⟩

end CursorState
