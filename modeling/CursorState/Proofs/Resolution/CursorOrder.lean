import CursorState.Proofs.Position.ReadingOrder
import CursorState.Proofs.Resolution.Counting

/-! Cursors in reading order: a later cursor has no less text before it. Row 0 is no row of its own,
so a cursor on it comes before the cursors on row 1 and may still stand behind some of them. -/
namespace CursorState

namespace Point

/-- `s.FoldsPast t`: row 0 counts as row 1, and there `s` stands behind `t`. Column 0 counts as
column 1. -/
structure FoldsPast (s t : Point) : Prop where
  row_zero : s.row = 0
  row_one : t.row = 1
  behind : t.column < s.column
  not_first : 1 < s.column

theorem foldsPast_iff {s t : Point} :
    s.FoldsPast t ↔ s.row.toNat = 0 ∧ t.row.toNat = 1 ∧ t.column.toNat < s.column.toNat ∧
      1 < s.column.toNat := by
  constructor
  · rintro ⟨hs, ht, hbehind, hfirst⟩
    exact ⟨congrArg UInt32.toNat hs, congrArg UInt32.toNat ht,
      UInt32.lt_iff_toNat_lt.mp hbehind, UInt32.lt_iff_toNat_lt.mp hfirst⟩
  · rintro ⟨hs, ht, hbehind, hfirst⟩
    exact ⟨UInt32.toNat_inj.mp hs, UInt32.toNat_inj.mp ht,
      UInt32.lt_iff_toNat_lt.mpr hbehind, UInt32.lt_iff_toNat_lt.mpr hfirst⟩

theorem target_le_target_iff {s t : Point} :
    s.target ≤ t.target ↔ s.row.toNat - 1 < t.row.toNat - 1 ∨
      s.row.toNat - 1 = t.row.toNat - 1 ∧ s.column.toNat - 1 ≤ t.column.toNat - 1 := by
  rw [← place_le_place, Place.le_def]
  simp only [place, target, toNat_before]

/-- Reading order survives the step back to positions counted from 0, but for row 0. -/
theorem target_le_target {s t : Point} (h : s ≤ t) (hfold : ¬ s.FoldsPast t) :
    s.target ≤ t.target := by
  rw [← place_le_place, Place.le_def] at h
  rw [foldsPast_iff] at hfold
  rw [target_le_target_iff]
  simp only [place] at h
  omega

theorem FoldsPast.target_le_target {s t : Point} (h : s.FoldsPast t) : t.target ≤ s.target := by
  rw [foldsPast_iff] at h
  rw [target_le_target_iff]
  omega

end Point

theorem effectiveLength_le_of_target_le {s t : Point} (h : s.target ≤ t.target) (text : List UInt8)
    (w : TabWidth) : effectiveLength text s w ≤ effectiveLength text t w := by
  rw [effectiveLength_eq_byteOffset, effectiveLength_eq_byteOffset]
  exact walk_le_walk w h .origin (units text)

/-- On row 0 the third column stands behind the first column of row 1, which is later in reading
order. -/
theorem effectiveLength_row_zero_not_le_row_one :
    let text : List UInt8 := [0x61, 0x62, 0x63]
    (⟨0, 3⟩ : Point) ≤ ⟨1, 1⟩ ∧ text.length < UInt32.size ∧
      ¬ effectiveLength text ⟨0, 3⟩ .standard ≤ effectiveLength text ⟨1, 1⟩ .standard ∧
      ((resolve countingEngine .standard text ⟨0, 3⟩).run .start).1 = .ok ⟨.exact (.ofNat 3), 2⟩ ∧
      ((resolve countingEngine .standard text ⟨1, 1⟩).run .start).1 = .ok ⟨.initial, 0⟩ := by
  intro text
  have hunits : units text = [.character 0, .character 0, .character 0] := by
    simp [text, units, continuationLength]
  have hzero : effectiveLength text ⟨0, 3⟩ .standard = 2 := by
    rw [effectiveLength_eq_byteOffset, byteOffset, hunits]
    decide
  have hone : effectiveLength text ⟨1, 1⟩ .standard = 0 := by
    rw [effectiveLength_eq_byteOffset, byteOffset, hunits]
    decide
  refine ⟨by decide, by decide, ?_, resolve_countingEngine_start hzero,
    resolve_countingEngine_start hone⟩
  rw [hzero, hone]
  decide

/-- A later cursor has no less text before it than an earlier one, unless the earlier one stands on
row 0, the later one on row 1 and before it there: then it has no more. What an answered query tells
is that length. -/
theorem effectiveLength_le_of_cursor_le (text : List UInt8) (w : TabWidth) {s t : Point}
    (h : s ≤ t) :
    (¬ s.FoldsPast t → effectiveLength text s w ≤ effectiveLength text t w) ∧
      (s.FoldsPast t → effectiveLength text t w ≤ effectiveLength text s w) ∧
      ∀ (E : Engine) (v : E.World) (stop : Point) (r : Resolution),
        ((resolve E w text stop).run v).1 = .ok r →
          r.effectiveLength = effectiveLength text stop w := by
  refine ⟨fun hfold => ?_, fun hfold => ?_, fun E v stop r => effectiveLength_of_resolve⟩
  · exact effectiveLength_le_of_target_le (Point.target_le_target h hfold) text w
  · exact effectiveLength_le_of_target_le hfold.target_le_target text w

/-- A cursor on row 0 before one on row 2, and behind one on row 1. -/
theorem effectiveLength_le_of_cursor_le_row_zero :
    let text : List UInt8 := [0x61, 0x09, 0xC3, 0xA9, 0x0D, 0x0A, 0x62]
    (⟨0, 6⟩ : Point) ≤ ⟨2, 0⟩ ∧ ¬ (⟨0, 6⟩ : Point).FoldsPast ⟨2, 0⟩ ∧
      effectiveLength text ⟨0, 6⟩ .standard ≤ effectiveLength text ⟨2, 0⟩ .standard ∧
      (⟨0, 6⟩ : Point) ≤ ⟨1, 2⟩ ∧ (⟨0, 6⟩ : Point).FoldsPast ⟨1, 2⟩ ∧
      effectiveLength text ⟨1, 2⟩ .standard ≤ effectiveLength text ⟨0, 6⟩ .standard ∧
      ((resolve countingEngine .standard text ⟨0, 6⟩).run .start).1 = .ok ⟨.exact (.ofNat 5), 4⟩ ∧
      effectiveLength text ⟨0, 6⟩ .standard = 4 := by
  intro text
  have hlater : (⟨0, 6⟩ : Point) ≤ ⟨2, 0⟩ := by decide
  have hkept : ¬ (⟨0, 6⟩ : Point).FoldsPast ⟨2, 0⟩ := fun hfold => absurd hfold.row_one (by decide)
  have hnext : (⟨0, 6⟩ : Point) ≤ ⟨1, 2⟩ := by decide
  have hfold : (⟨0, 6⟩ : Point).FoldsPast ⟨1, 2⟩ := by constructor <;> decide
  have hunits : units text = [.character 0, .tab, .character 1, .carriageReturnLineFeed,
      .character 0] := by
    simp [text, units, continuationLength, isContinuation_iff]
  have heffective : effectiveLength text ⟨0, 6⟩ .standard = 4 := by
    rw [effectiveLength_eq_byteOffset, byteOffset, hunits]
    decide
  have hanswer : ((resolve countingEngine .standard text ⟨0, 6⟩).run .start).1 =
      .ok ⟨.exact (.ofNat 5), 4⟩ := resolve_countingEngine_start heffective
  obtain ⟨hle, -, hlength⟩ := effectiveLength_le_of_cursor_le text .standard hlater
  exact ⟨hlater, hkept, hle hkept, hnext, hfold,
    (effectiveLength_le_of_cursor_le text .standard hnext).2.1 hfold, hanswer,
    (hlength countingEngine .start ⟨0, 6⟩ _ hanswer).symm⟩

end CursorState
