import CursorState.Proofs.Position.Passed

/-! Tab stops that are all stops of a smaller width: with the wider stops columns run ahead, so
targets are reached no later. -/
namespace CursorState

section
variable {v w : TabWidth}

theorem TabWidth.stopAfter_le_stopAfter (hdvd : v.columns.toNat ∣ w.columns.toNat) {c d : Nat}
    (h : c ≤ d) : v.stopAfter c ≤ w.stopAfter d := by
  obtain ⟨hstop, hlt⟩ := (w.isLeast_stopAfter d).1
  exact (v.isLeast_stopAfter c).2 ⟨Nat.dvd_trans hdvd hstop, Nat.lt_of_le_of_lt h hlt⟩

/-- A larger width that is no multiple of the smaller one can have the earlier stop. -/
example : TabWidth.stopAfter ⟨3, by decide⟩ 3 = 6 ∧ TabWidth.stopAfter ⟨4, by decide⟩ 3 = 4 := by
  decide

/-- `q.Ahead p`: on the row of `p`, and not before it. -/
structure Place.Ahead (q p : Place) : Prop where
  row : q.row = p.row
  column : p.column ≤ q.column

theorem Place.Ahead.le {q p : Place} (h : q.Ahead p) : p ≤ q :=
  Place.le_def.mpr (.inr ⟨h.row.symm, h.column⟩)

theorem Place.Ahead.advance {q p : Place} (h : q.Ahead p)
    (hdvd : v.columns.toNat ∣ w.columns.toNat) (u : TextUnit) :
    (q.advance w u).Ahead (p.advance v u) := by
  cases u with
  | lineFeed => exact ⟨congrArg (· + 1) h.row, Nat.le_refl 0⟩
  | carriageReturnLineFeed => exact ⟨congrArg (· + 1) h.row, Nat.le_refl 0⟩
  | tab => exact ⟨h.row, TabWidth.stopAfter_le_stopAfter hdvd h.column⟩
  | character n => exact ⟨h.row, Nat.succ_le_succ h.column⟩

/-- The walk that is ahead stops first. -/
theorem passed_prefix_of_ahead (hdvd : v.columns.toNat ∣ w.columns.toNat) {target q p : Place}
    (h : q.Ahead p) (us : List TextUnit) :
    passed w target q us <+: passed v target p us := by
  -- on the units; the walk that is ahead stays so, and stops first
  induction us generalizing q p with
  | nil => exact List.prefix_refl []
  | cons u us ih =>
    by_cases hq : target ≤ q
    · rw [passed_of_le hq]
      exact List.nil_prefix
    · have hp : ¬ target ≤ p := fun hle => hq (hle.trans h.le)
      rw [passed_cons hq, passed_cons hp]
      exact (List.prefix_cons_inj u).mpr (ih (h.advance hdvd u))

end

theorem unitsSize_le_of_prefix {us vs : List TextUnit} (h : us <+: vs) :
    unitsSize us ≤ unitsSize vs := by
  obtain ⟨ws, rfl⟩ := h
  rw [unitsSize_append]
  exact Nat.le_add_right _ _

theorem mem_of_tab_mem_units {text : List UInt8} (h : .tab ∈ units text) : 0x09 ∈ text := by
  induction text using unitInduction with
  | nil => simp [units] at h
  | unit text u rest hc ih =>
    rw [hc.units_eq] at h
    rcases List.mem_cons.mp h with rfl | hrest
    · cases hc
      exact List.mem_cons_self ..
    · exact List.mem_of_mem_drop (hc.drop_eq ▸ ih hrest)

theorem Place.advance_of_ne_tab (p : Place) (v w : TabWidth) {u : TextUnit} (h : u ≠ .tab) :
    p.advance w u = p.advance v u := by
  cases u with
  | lineFeed => rfl
  | carriageReturnLineFeed => rfl
  | tab => exact absurd rfl h
  | character n => rfl

theorem passed_of_tab_notMem (v w : TabWidth) (target p : Place) {us : List TextUnit}
    (h : .tab ∉ us) : passed w target p us = passed v target p us := by
  simpa using passed_map (f := id) (g := id) (fun _ => Iff.rfl)
    (fun p _ hmem => p.advance_of_ne_tab v w (ne_of_mem_of_not_mem hmem h)) p

/-- With wider stops, among which there are no new ones, the offset of a target is not larger. It is
the same in a text without tabs. -/
theorem byteOffset_le_of_dvd {text : List UInt8} {v w : TabWidth} (target : Point)
    (hdvd : v.columns.toNat ∣ w.columns.toNat) (hlength : text.length < UInt32.size) :
    byteOffset text target w ≤ byteOffset text target v ∧
      (0x09 ∉ text → byteOffset text target w = byteOffset text target v) := by
  rw [byteOffset_eq_unitsSize_passed target w hlength,
    byteOffset_eq_unitsSize_passed target v hlength]
  constructor
  · exact unitsSize_le_of_prefix (passed_prefix_of_ahead hdvd ⟨rfl, Nat.le_refl _⟩ _)
  · intro htab
    rw [passed_of_tab_notMem w v _ _ fun hmem => htab (mem_of_tab_mem_units hmem)]

/-- With a tab between characters, and without one. -/
theorem byteOffset_le_of_dvd_two_eight :
    let two : TabWidth := ⟨2, by decide⟩
    let eight : TabWidth := ⟨8, by decide⟩
    let tabs : List UInt8 := [0x61, 0x09, 0xE2, 0x82, 0x09, 0x0D, 0x0A, 0x62]
    let plain : List UInt8 := [0x61, 0xE2, 0x82, 0x0D, 0x0A, 0x62]
    two.columns.toNat ∣ eight.columns.toNat ∧ tabs.length < UInt32.size ∧
      plain.length < UInt32.size ∧ 0x09 ∉ plain ∧
      byteOffset tabs ⟨0, 6⟩ eight ≤ byteOffset tabs ⟨0, 6⟩ two ∧
      byteOffset tabs ⟨0, 6⟩ eight = 2 ∧ byteOffset tabs ⟨0, 6⟩ two = 7 ∧
      byteOffset plain ⟨0, 6⟩ eight = byteOffset plain ⟨0, 6⟩ two := by
  intro two eight tabs plain
  have hdvd : two.columns.toNat ∣ eight.columns.toNat := by decide
  have htabs : tabs.length < UInt32.size := by decide
  have hplain : plain.length < UInt32.size := by decide
  have hnotab : 0x09 ∉ plain := by decide
  have hunits : units tabs = [.character 0, .tab, .character 1, .tab, .carriageReturnLineFeed,
      .character 0] := by
    simp [tabs, units, continuationLength, isContinuation_iff]
  have height : byteOffset tabs ⟨0, 6⟩ eight = 2 := by
    rw [byteOffset, hunits]
    decide
  have htwo : byteOffset tabs ⟨0, 6⟩ two = 7 := by
    rw [byteOffset, hunits]
    decide
  exact ⟨hdvd, htabs, hplain, hnotab, (byteOffset_le_of_dvd ⟨0, 6⟩ hdvd htabs).1, height, htwo,
    (byteOffset_le_of_dvd ⟨0, 6⟩ hdvd hplain).2 hnotab⟩

end CursorState
