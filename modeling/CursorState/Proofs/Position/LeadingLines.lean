import Mathlib.Data.List.Count
import CursorState.Proofs.Position.Passed

/-! Lines before a text: behind a line end the units and the columns start anew, so whole lines
before a text move its offsets on by their length. -/
namespace CursorState

namespace Consumes

variable {text rest : List UInt8} {u : TextUnit}

theorem count_lineFeed (h : Consumes text u rest) :
    text.count 0x0A = rest.count 0x0A + if u.endsLine then 1 else 0 := by
  cases h with
  | lineFeed => exact List.count_cons_self
  | carriageReturnLineFeed =>
    rw [List.count_cons_of_ne (by decide)]
    exact List.count_cons_self
  | tab => exact List.count_cons_of_ne (by decide)
  | single hlf => exact List.count_cons_of_ne hlf
  | @lead b tail _ hhigh hinside =>
    have hlf := lineFeed_notMem_lead hhigh hinside
    rw [← List.cons_append, List.count_append, List.count_eq_zero.mpr hlf, Nat.zero_add]
    rfl

theorem endsLine_of_getLast? (h : Consumes text u []) (hlast : text.getLast? = some 0x0A) :
    u.endsLine := by
  have hpos : 0 < text.count 0x0A := List.count_pos_iff.mpr (List.mem_of_getLast? hlast)
  by_contra hends
  rw [h.count_lineFeed, if_neg hends] at hpos
  exact Nat.lt_irrefl 0 hpos

end Consumes

theorem count_lineFeed_eq_countP (text : List UInt8) :
    text.count 0x0A = (units text).countP TextUnit.endsLine := by
  induction text using unitInduction with
  | nil => simp [units]
  | unit text u rest hc ih => rw [hc.count_lineFeed, hc.units_eq, List.countP_cons, ih]

theorem exists_units_eq_concat {text : List UInt8} (hlast : text.getLast? = some 0x0A) :
    ∃ us lineEnd, units text = us ++ [lineEnd] ∧ lineEnd.endsLine := by
  induction text using unitInduction with
  | nil => cases hlast
  | unit text u rest hc ih =>
    rw [hc.units_eq]
    by_cases hrest : rest = []
    · subst hrest
      exact ⟨[], u, by simp [units], hc.endsLine_of_getLast? hlast⟩
    · obtain ⟨us, lineEnd, hunits, hends⟩ := ih ((hc.getLast?_rest hrest).trans hlast)
      exact ⟨u :: us, lineEnd, by rw [hunits, List.cons_append], hends⟩

theorem Place.row_advance (w : TabWidth) (p : Place) (u : TextUnit) :
    (p.advance w u).row = p.row + if u.endsLine then 1 else 0 := by
  cases u <;> rfl

theorem Place.advance_of_endsLine (w : TabWidth) (p : Place) {u : TextUnit} (h : u.endsLine) :
    p.advance w u = ⟨p.row + 1, 0⟩ := by
  cases u with
  | lineFeed => rfl
  | carriageReturnLineFeed => rfl
  | tab => cases h
  | character n => cases h

theorem Place.not_le_of_row_lt {target p : Place} (h : p.row < target.row) : ¬ target ≤ p := by
  rw [Place.le_def]
  omega

theorem passed_append_lineEnd {w : TabWidth} {target p : Place} {us : List TextUnit}
    {lineEnd : TextUnit} (hends : lineEnd.endsLine)
    (hrow : p.row + us.countP TextUnit.endsLine < target.row) (vs : List TextUnit) :
    passed w target p (us ++ lineEnd :: vs) =
      us ++ lineEnd :: passed w target ⟨p.row + us.countP TextUnit.endsLine + 1, 0⟩ vs := by
  induction us generalizing p with
  | nil =>
    have hshort := Place.not_le_of_row_lt hrow
    rw [List.nil_append, passed_cons hshort, p.advance_of_endsLine w hends]
    rfl
  | cons u us ih =>
    have hshort := Place.not_le_of_row_lt (Nat.lt_of_le_of_lt (Nat.le_add_right _ _) hrow)
    have hcount : p.row + (u :: us).countP TextUnit.endsLine =
        (p.advance w u).row + us.countP TextUnit.endsLine := by
      rw [List.countP_cons, p.row_advance w u, Nat.add_assoc, Nat.add_comm (List.countP _ _)]
    rw [hcount] at hrow ⊢
    rw [List.cons_append, passed_cons hshort, ih hrow, List.cons_append]

def Place.down (n : Nat) (p : Place) : Place := ⟨n + p.row, p.column⟩

theorem Place.down_le_down {n : Nat} {p q : Place} : p.down n ≤ q.down n ↔ p ≤ q := by
  rw [Place.le_def, Place.le_def]
  simp only [Place.down, Nat.add_lt_add_iff_left, Nat.add_left_cancel_iff]

theorem Place.advance_down (p : Place) (w : TabWidth) (n : Nat) (u : TextUnit) :
    (p.down n).advance w u = (p.advance w u).down n := by
  cases u <;> rfl

/-- A walk that starts further down passes the same units to a target that lies as much further
down. -/
theorem passed_down (w : TabWidth) (n : Nat) (target p : Place) (us : List TextUnit) :
    passed w (target.down n) (p.down n) us = passed w target p us := by
  simpa using passed_map (f := id) (g := Place.down n) (fun _ => Place.down_le_down)
    (fun p u _ => p.advance_down w n u) p

/-- The lines before a text are passed, and then what is passed in the text alone. -/
theorem passed_units_append {a : List UInt8} (hlast : a.getLast? = some 0x0A) (b : List UInt8)
    (w : TabWidth) (target : Place) :
    passed w (target.down (a.count 0x0A)) .origin (units (a ++ b)) =
      units a ++ passed w target .origin (units b) := by
  obtain ⟨us, lineEnd, hunits, hends⟩ := exists_units_eq_concat hlast
  have hcount : a.count 0x0A = us.countP TextUnit.endsLine + 1 := by
    rw [count_lineFeed_eq_countP, hunits, List.countP_append, List.countP_singleton, if_pos hends]
  have hrow : Place.origin.row + us.countP TextUnit.endsLine <
      (target.down (a.count 0x0A)).row := by
    simp only [Place.origin, Place.down]
    omega
  have hstart : Place.mk (Place.origin.row + us.countP TextUnit.endsLine + 1) 0 =
      Place.origin.down (a.count 0x0A) := by
    rw [hcount, Place.origin, Nat.zero_add]
    rfl
  rw [units_append (.of_lineFeed hlast b), hunits, List.append_assoc, List.singleton_append,
    passed_append_lineEnd hends hrow, hstart, passed_down, List.append_assoc,
    List.singleton_append]

/-- With whole lines before a text, the target as many rows further down has its offset as many bytes
further on, whatever stands in the lines and in the text. -/
theorem byteOffset_append_lines {a b : List UInt8} (w : TabWidth) (r : Nat) (c : UInt32)
    (hlast : a.getLast? = some 0x0A) (hlength : a.length + b.length < UInt32.size)
    (hrow : a.count 0x0A + r < UInt32.size) :
    byteOffset (a ++ b) ⟨.ofNat (a.count 0x0A + r), c⟩ w =
      a.length + byteOffset b ⟨.ofNat r, c⟩ w := by
  have htarget : Point.place ⟨.ofNat (a.count 0x0A + r), c⟩ =
      (Point.place ⟨.ofNat r, c⟩).down (a.count 0x0A) := by
    have hsum : (UInt32.ofNat (a.count 0x0A + r)).toNat = a.count 0x0A + r :=
      Nat.mod_eq_of_lt hrow
    have hr : (UInt32.ofNat r).toNat = r :=
      Nat.mod_eq_of_lt (Nat.lt_of_le_of_lt (Nat.le_add_left r _) hrow)
    rw [Point.place, Point.place, hsum, hr]
    rfl
  have hb : b.length < UInt32.size := Nat.lt_of_le_of_lt (Nat.le_add_left _ _) hlength
  rw [byteOffset_eq_unitsSize_passed _ w (by rwa [List.length_append]), htarget,
    passed_units_append hlast, unitsSize_append, unitsSize_units,
    ← byteOffset_eq_unitsSize_passed _ w hb]

/-- A tab and a lone carriage return, a truncated character before the line end, and a continuation
byte behind it. -/
theorem byteOffset_append_lines_mixed :
    let a : List UInt8 := [0x09, 0x0D, 0x0D, 0x0A, 0xE2, 0x0A]
    let b : List UInt8 := [0x82, 0x0A, 0x09, 0x61]
    a.getLast? = some 0x0A ∧ a.length + b.length < UInt32.size ∧
      a.count 0x0A + 1 < UInt32.size ∧ byteOffset b ⟨.ofNat 1, 2⟩ .standard = 3 ∧
      byteOffset (a ++ b) ⟨.ofNat (a.count 0x0A + 1), 2⟩ .standard = a.length + 3 := by
  intro a b
  have hlast : a.getLast? = some 0x0A := by decide
  have hlength : a.length + b.length < UInt32.size := by decide
  have hrow : a.count 0x0A + 1 < UInt32.size := by decide
  have hunits : units b = [.character 0, .lineFeed, .tab, .character 0] := by
    simp [b, units, continuationLength]
  have hoffset : byteOffset b ⟨.ofNat 1, 2⟩ .standard = 3 := by
    rw [byteOffset, hunits]
    decide
  refine ⟨hlast, hlength, hrow, hoffset, ?_⟩
  rw [byteOffset_append_lines .standard 1 2 hlast hlength hrow, hoffset]

end CursorState
