import CursorState.Proofs.Position.Boundary

/-! The walk to a position by index. Bytes are read where they stand in the text, and one is added
to a word only if the word is not the last one; whatever cannot be done is a fault. In a text with
fewer bytes than there are words the walk has no fault, and it comes to the byte offset. -/
namespace CursorState

inductive WalkFault where
  /-- There is no byte at the index. -/
  | noByte (index : Nat)
  /-- The text ends before the start of the rest that is asked for. -/
  | noRest (start : Nat)
  | lastRow
  | lastStop
  deriving DecidableEq, Repr

def byteOrFault (text : List UInt8) (index : Nat) : Except WalkFault UInt8 :=
  match text[index]? with
  | some b => .ok b
  | none => .error (.noByte index)

def restOrFault (text : List UInt8) (start : Nat) : Except WalkFault (List UInt8) :=
  if start ≤ text.length then .ok (text.drop start) else .error (.noRest start)

def succOrFault (fault : WalkFault) (n : UInt32) : Except WalkFault UInt32 :=
  if n.toNat + 1 < UInt32.size then .ok (n + 1) else .error fault

/-- The tab stop after `column`. The stops up to there are counted in words; only their distance
from the start of the line may be cut off at the last column. -/
def TabWidth.nextStopOrFault (w : TabWidth) (column : UInt32) : Except WalkFault UInt32 := do
  let stops ← succOrFault .lastStop (column / w.columns)
  return UInt32.ofNatClamp (stops.toNat * w.columns.toNat)

structure IndexState where
  offset : Nat
  position : Point
  deriving DecidableEq, Repr

namespace IndexState

def start : IndexState := ⟨0, .origin⟩

/-- How many bytes behind the byte `b` at the offset belong to the same unit, and where the unit
leads. Whether a line feed follows a carriage return is asked without reading beyond the text. -/
def unitFrom (w : TabWidth) (text : List UInt8) (s : IndexState) (b : UInt8) :
    Except WalkFault (Nat × Point) := do
  if b = 0x0A then
    return (0, ⟨← succOrFault .lastRow s.position.row, 0⟩)
  else if b = 0x0D ∧ text[s.offset + 1]? = some 0x0A then
    return (1, ⟨← succOrFault .lastRow s.position.row, 0⟩)
  else if b = 0x09 then
    return (0, ⟨s.position.row, ← w.nextStopOrFault s.position.column⟩)
  else
    let next : Point := ⟨s.position.row, UInt32.ofNatClamp (s.position.column.toNat + 1)⟩
    if 0xC0 ≤ b then
      let rest ← restOrFault text (s.offset + 1)
      return ((rest.takeWhile isContinuation).length, next)
    else
      return (0, next)

def step (w : TabWidth) (text : List UInt8) (s : IndexState) : Except WalkFault IndexState := do
  let b ← byteOrFault text s.offset
  let (more, next) ← s.unitFrom w text b
  return ⟨s.offset + 1 + more, next⟩

theorem offset_lt_of_step {w : TabWidth} {text : List UInt8} {s s' : IndexState}
    (h : s.step w text = .ok s') : s.offset < s'.offset := by
  unfold step at h
  cases hb : byteOrFault text s.offset with
  | error fault =>
    rw [hb] at h
    cases h
  | ok b =>
    rw [hb] at h
    change (s.unitFrom w text b >>= _) = _ at h
    cases hunit : s.unitFrom w text b with
    | error fault =>
      rw [hunit] at h
      cases h
    | ok unit =>
      rw [hunit] at h
      cases h
      exact Nat.lt_of_lt_of_le (Nat.lt_succ_self _) (Nat.le_add_right _ _)

end IndexState

def indexWalk (w : TabWidth) (target : Point) (text : List UInt8) (s : IndexState) :
    Except WalkFault Nat :=
  if s.offset < text.length then
    if target ≤ s.position then .ok s.offset
    else
      match _ : s.step w text with
      | .ok next => indexWalk w target text next
      | .error fault => .error fault
  else .ok text.length
  termination_by text.length - s.offset
  decreasing_by exact Nat.sub_lt_sub_left ‹_› (IndexState.offset_lt_of_step ‹_›)

/-- `Visits w target text s`: the walk from the start of the text comes to `s`. -/
inductive Visits (w : TabWidth) (target : Point) (text : List UInt8) : IndexState → Prop
  | start : Visits w target text .start
  | step {s next : IndexState} (hs : Visits w target text s) (hinside : s.offset < text.length)
      (hbefore : ¬ target ≤ s.position) (hstep : s.step w text = .ok next) :
      Visits w target text next

section
variable {text tail : List UInt8} {b : UInt8} {i : Nat}

theorem byteOrFault_of_drop (h : text.drop i = b :: tail) : byteOrFault text i = .ok b := by
  have hbyte : text[i]? = some b := by
    rw [← List.head?_drop, h, List.head?_cons]
  rw [byteOrFault, hbyte]

theorem drop_succ_of_drop (h : text.drop i = b :: tail) : text.drop (i + 1) = tail := by
  rw [← List.tail_drop, h, List.tail_cons]

theorem restOrFault_of_drop (h : text.drop i = b :: tail) :
    restOrFault text (i + 1) = .ok tail := by
  have hlt : i < text.length := by
    rw [← List.drop_eq_nil_iff.not.trans Nat.not_le, h]
    exact List.cons_ne_nil b tail
  rw [restOrFault, if_pos (Nat.succ_le_of_lt hlt), drop_succ_of_drop h]

end

theorem succOrFault_of_lt {fault : WalkFault} {n : UInt32} (h : n.toNat + 1 < UInt32.size) :
    succOrFault fault n = .ok (n + 1) :=
  if_pos h

/-- There are enough words to count the tab stops, unless each column is one and the column is the
last: wider stops are at most half as many. -/
theorem TabWidth.stops_lt_iff {w : TabWidth} {column : UInt32} :
    (column / w.columns).toNat + 1 < UInt32.size ↔
      ¬ (w.columns = 1 ∧ column.toNat + 1 = UInt32.size) := by
  have hcolumn : column.toNat < UInt32.size := column.toNat_lt
  rw [UInt32.toNat_div]
  by_cases hw : w.columns = 1
  · rw [hw, UInt32.toNat_one, Nat.div_one, eq_self, true_and]
    omega
  · have hwide : 2 ≤ w.columns.toNat := by
      have hpos := w.columns_pos
      have hne : w.columns.toNat ≠ 1 := fun h => hw (UInt32.toNat_inj.mp h)
      omega
    have hhalf : column.toNat / w.columns.toNat ≤ column.toNat / 2 :=
      Nat.div_le_div_left hwide (by decide)
    have hsize : UInt32.size = 4294967296 := rfl
    refine iff_of_true ?_ fun h => hw h.1
    omega

theorem TabWidth.nextStopOrFault_of_lt {w : TabWidth} {column : UInt32}
    (h : (column / w.columns).toNat + 1 < UInt32.size) :
    w.nextStopOrFault column = .ok (w.nextStop column) := by
  have hstops : (column / w.columns + 1).toNat = column.toNat / w.columns.toNat + 1 := by
    rw [toNat_add_one h, UInt32.toNat_div]
  rw [nextStopOrFault, succOrFault_of_lt h, nextStop, ← hstops]
  rfl

namespace IndexState

variable {w : TabWidth} {text tail rest : List UInt8} {s : IndexState} {b : UInt8} {u : TextUnit}

theorem unitFrom_of_consumes (hdrop : text.drop s.offset = b :: tail)
    (hc : Consumes (b :: tail) u rest) (hrow : s.position.row.toNat + 1 < UInt32.size)
    (hstop : (s.position.column / w.columns).toNat + 1 < UInt32.size) :
    s.unitFrom w text b = .ok (u.size - 1, s.position.advance w u) := by
  have hnext : text[s.offset + 1]? = tail.head? := by
    rw [← List.head?_drop, drop_succ_of_drop hdrop]
  cases hc with
  | lineFeed =>
    rw [unitFrom, if_pos rfl, succOrFault_of_lt hrow]
    rfl
  | carriageReturnLineFeed =>
    rw [unitFrom, if_neg (by decide), hnext, if_pos ⟨rfl, rfl⟩, succOrFault_of_lt hrow]
    rfl
  | tab =>
    rw [unitFrom, if_neg (by decide), if_neg fun h => absurd h.1 (by decide), if_pos rfl,
      TabWidth.nextStopOrFault_of_lt hstop]
    rfl
  | single hlf htab hpair hlow =>
    rw [unitFrom, if_neg hlf, hnext, if_neg fun h => hpair h.1 h.2, if_neg htab]
    exact if_neg (UInt8.not_le.mpr hlow)
  | @lead _ inner _ hhigh hinside houtside =>
    have hne (c : UInt8) (hlow : c < 0xC0) : b ≠ c := by
      rintro rfl
      exact UInt8.not_le.mpr hlow hhigh
    have hlength : ((inner ++ rest).takeWhile isContinuation).length = inner.length := by
      have := continuationLength_append hhigh hinside houtside
      rwa [continuationLength, if_pos hhigh] at this
    rw [unitFrom, if_neg (hne 0x0A (by decide)), if_neg fun h => hne 0x0D (by decide) h.1,
      if_neg (hne 0x09 (by decide))]
    refine (if_pos hhigh).trans ?_
    rw [restOrFault_of_drop hdrop, TextUnit.size, Nat.add_sub_cancel, ← hlength]
    rfl

theorem step_of_consumes (hc : Consumes (text.drop s.offset) u rest)
    (hrow : s.position.row.toNat + 1 < UInt32.size)
    (hstop : (s.position.column / w.columns).toNat + 1 < UInt32.size) :
    s.step w text = .ok ⟨s.offset + u.size, s.position.advance w u⟩ := by
  cases hdrop : text.drop s.offset with
  | nil =>
    rw [hdrop] at hc
    cases hc
  | cons b tail =>
    rw [hdrop] at hc
    have hsize : s.offset + 1 + (u.size - 1) = s.offset + u.size := by
      have := u.size_pos
      omega
    rw [step, byteOrFault_of_drop hdrop, ← hsize]
    change (s.unitFrom w text b >>= _) = _
    rw [unitFrom_of_consumes hdrop hc hrow hstop]
    rfl

/-- The walk has not left the text. No more rows than bytes have been passed, and no more columns if
each column is a tab stop. -/
structure Bounded (w : TabWidth) (text : List UInt8) (s : IndexState) : Prop where
  offset : s.offset ≤ text.length
  row : s.position.row.toNat ≤ s.offset
  column : w.columns = 1 → s.position.column.toNat ≤ s.offset

namespace Bounded

theorem start (w : TabWidth) (text : List UInt8) : Bounded w text .start where
  offset := Nat.zero_le _
  row := Nat.le_refl 0
  column _ := Nat.le_refl 0

section
variable (hs : s.Bounded w text) (hinside : s.offset < text.length)
  (hlength : text.length < UInt32.size)
include hs hinside hlength

theorem row_lt : s.position.row.toNat + 1 < UInt32.size := by
  have := hs.row
  omega

theorem stops_lt : (s.position.column / w.columns).toNat + 1 < UInt32.size := by
  rw [TabWidth.stops_lt_iff]
  rintro ⟨hw, hlast⟩
  have := hs.column hw
  omega

theorem step_eq (hc : Consumes (text.drop s.offset) u rest) :
    s.step w text = .ok ⟨s.offset + u.size, s.position.advance w u⟩ :=
  step_of_consumes hc (hs.row_lt hinside hlength) (hs.stops_lt hinside hlength)

theorem next (hc : Consumes (text.drop s.offset) u rest) :
    Bounded w text ⟨s.offset + u.size, s.position.advance w u⟩ := by
  have hrow := hs.row
  have hsize := hc.length_eq
  rw [List.length_drop] at hsize
  have hoffset : s.offset + u.size ≤ text.length := by omega
  have hone : s.position.row.toNat + 1 ≤ s.offset + u.size := Nat.add_le_add hrow u.size_pos
  have hnext := toNat_add_one (hs.row_lt hinside hlength)
  cases u with
  | lineFeed => exact ⟨hoffset, hnext.trans_le hone, fun _ => Nat.zero_le _⟩
  | carriageReturnLineFeed => exact ⟨hoffset, hnext.trans_le hone, fun _ => Nat.zero_le _⟩
  | tab =>
    refine ⟨hoffset, hrow.trans (Nat.le_add_right _ _), fun hw => ?_⟩
    have hcolumn := hs.column hw
    simp only [Point.advance, TabWidth.nextStop, TextUnit.size]
    rw [toNat_ofNatClamp, hw, UInt32.toNat_one, Nat.div_one, Nat.mul_one]
    omega
  | character n =>
    refine ⟨hoffset, hrow.trans (Nat.le_add_right _ _), fun hw => ?_⟩
    have hcolumn := hs.column hw
    simp only [Point.advance, TextUnit.size]
    rw [toNat_ofNatClamp]
    omega

end

end Bounded
end IndexState

theorem Consumes.exists_of_drop {text : List UInt8} {i : Nat} (h : i < text.length) :
    ∃ u rest, Consumes (text.drop i) u rest := by
  rw [List.drop_eq_getElem_cons h]
  exact exists_of_cons _ _

section
variable {w : TabWidth} {target : Point} {text : List UInt8} {s : IndexState}

theorem indexWalk_of_step {next : IndexState} (hinside : s.offset < text.length)
    (hbefore : ¬ target ≤ s.position) (hstep : s.step w text = .ok next) :
    indexWalk w target text s = indexWalk w target text next := by
  rw [indexWalk, if_pos hinside, if_neg hbefore]
  split
  · next next' hstep' => rw [Except.ok.inj (hstep'.symm.trans hstep)]
  · next fault hstep' => cases hstep'.symm.trans hstep

variable (hlength : text.length < UInt32.size)
include hlength

theorem Visits.bounded (h : Visits w target text s) : s.Bounded w text := by
  induction h with
  | start => exact .start w text
  | @step s next hs hinside hbefore hstep ih =>
    obtain ⟨u, rest, hc⟩ := Consumes.exists_of_drop hinside
    rw [ih.step_eq hinside hlength hc] at hstep
    cases hstep
    exact ih.next hinside hlength hc

/-- From any place that a walk can come to, it goes on as the walk over the units that are left. -/
theorem indexWalk_eq (hs : s.Bounded w text) :
    indexWalk w target text s =
      .ok (s.offset + walk w target s.position (units (text.drop s.offset))) := by
  -- by the units that are left of the text, with the bounds carried along from state to state
  generalize hdrop : text.drop s.offset = bytes
  induction bytes using unitInduction generalizing s with
  | nil =>
    have hend : text.length ≤ s.offset := List.drop_eq_nil_iff.mp hdrop
    rw [indexWalk, if_neg (Nat.not_lt.mpr hend), Nat.le_antisymm hs.offset hend]
    simp [units, walk]
  | unit bytes u rest hc ih =>
    have hinside : s.offset < text.length := by
      have hsize := hc.length_eq
      have hpos := u.size_pos
      rw [← hdrop, List.length_drop] at hsize
      omega
    rw [hc.units_eq]
    by_cases hle : target ≤ s.position
    · rw [indexWalk, if_pos hinside, if_pos hle, walk_of_le hle, Nat.add_zero]
    · subst hdrop
      have hrest : text.drop (s.offset + u.size) = rest := by
        rw [← List.drop_drop, hc.drop_eq]
      rw [indexWalk_of_step hinside hle (hs.step_eq hinside hlength hc),
        ih (hs.next hinside hlength hc) hrest, walk_cons hle, Nat.add_assoc]

end

theorem TabWidth.nextStopOrFault_eq_error_iff {w : TabWidth} {column : UInt32} :
    (∃ fault, w.nextStopOrFault column = .error fault) ↔
      w.columns = 1 ∧ column.toNat + 1 = UInt32.size := by
  rw [← not_iff_not, ← stops_lt_iff]
  constructor
  · intro hfault
    by_contra hlt
    refine hfault ⟨.lastStop, ?_⟩
    rw [nextStopOrFault, succOrFault, if_neg hlt]
    rfl
  · rintro hlt ⟨fault, hfault⟩
    rw [nextStopOrFault_of_lt hlt] at hfault
    cases hfault

/-- In a text with fewer bytes than there are words, the walk by index comes to the byte offset,
which lies in the text, and each place that it visits on the way lets it go on: the row is not the
last one, the tab stops can be counted, each byte and each rest that is read is there, and the
offset grows without leaving the text. The only column from which the stops cannot be counted is the
last one, if each column is a stop. -/
theorem indexWalk_never_faults (w : TabWidth) (target : Point) (text : List UInt8)
    (h : text.length < UInt32.size) :
    indexWalk w target text .start = .ok (byteOffset text target w) ∧
    byteOffset text target w ≤ text.length ∧
    (∀ s, Visits w target text s → s.offset < text.length → ¬ target ≤ s.position →
      s.position.row.toNat + 1 < UInt32.size ∧
      (s.position.column / w.columns).toNat + 1 < UInt32.size ∧
      ∃ next, s.step w text = .ok next ∧ s.offset < next.offset ∧
        next.offset ≤ text.length) ∧
    ∀ column, (∃ fault, w.nextStopOrFault column = .error fault) ↔
      w.columns = 1 ∧ column.toNat + 1 = UInt32.size := by
  refine ⟨?_, byteOffset_le_length text target w, fun s hs hinside hbefore => ?_,
    fun column => TabWidth.nextStopOrFault_eq_error_iff⟩
  · rw [indexWalk_eq h (.start w text), IndexState.start, List.drop_zero, Nat.zero_add]
    rfl
  · have hbounded := hs.bounded h
    obtain ⟨u, rest, hc⟩ := Consumes.exists_of_drop hinside
    have hstep := hbounded.step_eq hinside h hc
    exact ⟨hbounded.row_lt hinside h, hbounded.stops_lt hinside h, _, hstep,
      IndexState.offset_lt_of_step hstep, (hbounded.next hinside h hc).offset⟩

/-- Each column is a tab stop, and the last byte starts a character that the text does not end. -/
theorem indexWalk_never_faults_truncated :
    let w : TabWidth := ⟨1, by decide⟩
    let text : List UInt8 := [0x09, 0x0D, 0x0A, 0x61, 0xC3]
    let s : IndexState := ⟨4, 1, 1⟩
    text.length < UInt32.size ∧ indexWalk w ⟨1, 2⟩ text .start = .ok 5 ∧
      Visits w ⟨1, 2⟩ text s ∧ s.offset < text.length ∧ ¬ (⟨1, 2⟩ : Point) ≤ s.position ∧
      ∃ next, s.step w text = .ok next ∧ s.offset < next.offset ∧
        next.offset ≤ text.length := by
  intro w text s
  have hlength : text.length < UInt32.size := by decide
  have hunits : units text = [.tab, .carriageReturnLineFeed, .character 0, .character 0] := by
    simp [text, units, continuationLength]
  have hoffset : byteOffset text ⟨1, 2⟩ w = 5 := by
    rw [byteOffset, hunits]
    decide
  have hs : Visits w ⟨1, 2⟩ text s :=
    @Visits.step _ _ _ ⟨3, 1, 0⟩ _
      (@Visits.step _ _ _ ⟨1, 0, 1⟩ _
        (@Visits.step _ _ _ .start _ .start (by decide) (by decide) (by decide))
        (by decide) (by decide) (by decide))
      (by decide) (by decide) (by decide)
  obtain ⟨hwalk, -, hstep, -⟩ := indexWalk_never_faults w ⟨1, 2⟩ text hlength
  rw [hoffset] at hwalk
  have hinside : s.offset < text.length := by decide
  have hbefore : ¬ (⟨1, 2⟩ : Point) ≤ s.position := by decide
  exact ⟨hlength, hwalk, hs, hinside, hbefore, (hstep s hs hinside hbefore).2.2⟩

end CursorState
