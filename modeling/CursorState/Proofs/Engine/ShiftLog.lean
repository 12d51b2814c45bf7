import Mathlib.Data.List.Count
import CursorState.Engine.ShiftRecord
import CursorState.Proofs.Position.Place
import CursorState.Proofs.Text.Decimal
import CursorState.Proofs.Text.Trim

/-! The log of one parse, line by line: which lines shift to a state, and what the last of them and
the skips after it tell. -/
namespace CursorState
open Text

/-- `ShiftLine line state`: the line tells a shift to `state`. The first and the last state number
are not used by grammars, and a line that names them is no shift. -/
inductive ShiftLine : List Char → StateId → Prop
  | intro {lead sign digits trail : List Char} {state : StateId} (hlead : Blanks lead)
      (hsign : sign = [] ∨ sign = ['+']) (hvalue : Denotes digits state.toNat)
      (htrail : Blanks trail) (hpos : 0 < state.toNat) (hlt : state.toNat < 65535) :
      ShiftLine ("shift state:".toList ++ (lead ++ (sign ++ digits) ++ trail)) state

theorem stripStart_eq_some_iff {start cs rest : List Char} :
    stripStart start cs = some rest ↔ cs = start ++ rest := by
  rw [stripStart, Option.ite_none_right_eq_some, List.isPrefixOf_iff_prefix, Option.some.injEq]
  constructor
  · rintro ⟨⟨after, rfl⟩, rfl⟩
    rw [List.drop_left]
  · rintro rfl
    exact ⟨List.prefix_append start rest, List.drop_left⟩

theorem Denotes.ne_plus {digits : List Char} {n : Nat} (h : Denotes digits n) (rest : List Char) :
    digits ≠ '+' :: rest := by
  rintro rfl
  exact absurd (h.2.1 '+' List.mem_cons_self) (by decide)

theorem stateNumber?_eq_some_iff {cs : List Char} {n : Nat} :
    stateNumber? cs = some n ↔
      ∃ sign digits, cs = sign ++ digits ∧ (sign = [] ∨ sign = ['+']) ∧ Denotes digits n ∧
        n < UInt16.size := by
  constructor
  · intro h
    unfold stateNumber? at h
    split at h
    · next digits => exact ⟨['+'], digits, rfl, .inr rfl, readBelow_eq_some_iff.mp h⟩
    · exact ⟨[], cs, rfl, .inl rfl, readBelow_eq_some_iff.mp h⟩
  · rintro ⟨sign, digits, rfl, rfl | rfl, hvalue, hlt⟩
    · unfold stateNumber?
      split
      · next rest heq => exact absurd heq (hvalue.ne_plus rest)
      · exact readBelow_eq_some_iff.mpr ⟨hvalue, hlt⟩
    · exact readBelow_eq_some_iff.mpr ⟨hvalue, hlt⟩

theorem not_isBlank_of_isAsciiDigit {c : Char} (h : isAsciiDigit c) : isBlank c = false := by
  have hd := toNat_of_isDigit ((isAsciiDigit_eq_isDigit c).symm.trans h)
  simp only [isBlank, Bool.or_eq_false_iff, Bool.and_eq_false_iff, decide_eq_false_iff_not,
    beq_eq_false_iff_ne]
  omega

theorem Denotes.trimmed {sign digits : List Char} {n : Nat} (h : Denotes digits n)
    (hsign : sign = [] ∨ sign = ['+']) : Trimmed (sign ++ digits) where
  start c hc := by
    rcases hsign with rfl | rfl
    · exact not_isBlank_of_isAsciiDigit (h.2.1 c (List.mem_of_mem_head? hc))
    · obtain rfl := Option.some.inj hc
      decide
  stop c hc := by
    rw [List.getLast?_append, List.getLast?_eq_some_getLast h.1, Option.some_or] at hc
    obtain rfl := Option.some.inj hc
    exact not_isBlank_of_isAsciiDigit (h.2.1 _ (List.getLast_mem h.1))

theorem shiftTarget?_eq_some_iff {line : String} {state : StateId} :
    shiftTarget? line = some state ↔ ShiftLine line.toList state := by
  simp only [shiftTarget?, Option.bind_eq_bind, Option.bind_eq_some_iff, stripStart_eq_some_iff,
    stateNumber?_eq_some_iff, Option.ite_none_left_eq_some, Option.some.injEq, not_or]
  constructor
  · rintro ⟨rest, hline, n, ⟨sign, digits, htrim, hsign, hvalue, hlt⟩, ⟨hzero, hmax⟩, rfl⟩
    obtain ⟨lead, trail, hlead, htrail, hrest⟩ := exists_trim rest
    rw [htrim] at hrest
    have hn : (StateId.ofNat n).toNat = n := StateId.toNat_ofNat hlt
    rw [hline, hrest]
    refine .intro hlead hsign (hn.symm ▸ hvalue) htrail ?_ ?_
    · omega
    · have : UInt16.size = 65536 := rfl
      omega
  · intro h
    generalize hline : line.toList = cs at h
    obtain @⟨lead, sign, digits, trail, _, hlead, hsign, hvalue, htrail, hpos, hlt⟩ := h
    have hne : sign ++ digits ≠ [] := fun hnil => hvalue.1 (List.append_eq_nil_iff.mp hnil).2
    refine ⟨_, rfl, state.toNat, ⟨sign, digits, ?_, hsign, hvalue, state.toNat_lt⟩, ⟨?_, ?_⟩, ?_⟩
    · exact (hvalue.trimmed hsign).trim_append hne hlead htrail
    · omega
    · omega
    · exact state.ofNat_toNat

/-- `LogTells lines last skipped`: the last shift of the log is to `last`, and after it, or at all if
there is none, `skipped` tokens were skipped. -/
inductive LogTells : List String → Option StateId → Nat → Prop
  | shifted {before after : List String} {line : String} {state : StateId}
      (hshift : ShiftLine line.toList state)
      (hafter : ∀ later ∈ after, ∀ state', ¬ ShiftLine later.toList state') :
      LogTells (before ++ line :: after) (some state) (after.countP isSkip)
  | unshifted {lines : List String}
      (hnone : ∀ line ∈ lines, ∀ state, ¬ ShiftLine line.toList state) :
      LogTells lines none (lines.countP isSkip)

theorem isSkip_iff {line : String} : isSkip line ↔ "skip_token".toList <+: line.toList := by
  rw [isSkip, List.isPrefixOf_iff_prefix]

/-- A line that starts like a shift is no skip, even if it is no shift either. -/
theorem not_isSkip_of_shiftState {line : String} (h : "shift state:".toList <+: line.toList) :
    isSkip line = false := by
  rw [Bool.eq_false_iff, ne_eq, isSkip_iff]
  intro hskip
  have hboth := List.prefix_of_prefix_length_le hskip h (by decide)
  exact absurd hboth (by decide)

theorem shiftTarget?_eq_none_iff {line : String} :
    shiftTarget? line = none ↔ ∀ state, ¬ ShiftLine line.toList state := by
  simp only [Option.eq_none_iff_forall_ne_some, ne_eq, shiftTarget?_eq_some_iff]

namespace ShiftRecord

theorem observe_of_shift {line : String} {state : StateId} (h : ShiftLine line.toList state)
    (r : ShiftRecord) : r.observe line = ⟨some state, 0⟩ := by
  simp only [observe, shiftTarget?_eq_some_iff.mpr h]

theorem observe_of_other {line : String} (h : ∀ state, ¬ ShiftLine line.toList state)
    (hskip : isSkip line = false) (r : ShiftRecord) : r.observe line = r := by
  simp only [observe, shiftTarget?_eq_none_iff.mpr h, hskip, Bool.false_eq_true, if_false]

theorem observe_of_not_shift {line : String} (h : ∀ state, ¬ ShiftLine line.toList state)
    (r : ShiftRecord) :
    (r.observe line).last = r.last ∧
      (r.observe line).skipped.toNat =
        min (r.skipped.toNat + if isSkip line then 1 else 0) (UInt32.size - 1) := by
  have hskipped : r.skipped.toNat < UInt32.size := r.skipped.toNat_lt
  simp only [observe, shiftTarget?_eq_none_iff.mpr h]
  by_cases hskip : isSkip line
  · rw [if_pos hskip, if_pos hskip]
    exact ⟨rfl, toNat_ofNatClamp _⟩
  · rw [if_neg hskip, if_neg hskip]
    exact ⟨rfl, by omega⟩

theorem foldl_observe_of_not_shift {lines : List String}
    (h : ∀ line ∈ lines, ∀ state, ¬ ShiftLine line.toList state) (r : ShiftRecord) :
    (lines.foldl observe r).last = r.last ∧
      (lines.foldl observe r).skipped.toNat =
        min (r.skipped.toNat + lines.countP isSkip) (UInt32.size - 1) := by
  induction lines generalizing r with
  | nil =>
    have hskipped : r.skipped.toNat < UInt32.size := r.skipped.toNat_lt
    refine ⟨rfl, ?_⟩
    rw [List.foldl_nil, List.countP_nil]
    omega
  | cons line lines ih =>
    obtain ⟨hline, hlines⟩ := List.forall_mem_cons.mp h
    obtain ⟨hlast, hskipped⟩ := r.observe_of_not_shift hline
    obtain ⟨ihlast, ihskipped⟩ := ih hlines (r.observe line)
    refine ⟨ihlast.trans hlast, ?_⟩
    rw [List.foldl_cons, ihskipped, hskipped, List.countP_cons]
    omega

/-- Nothing is left of what was recorded before a shift. -/
theorem foldl_observe_of_shift {lines : List String}
    (h : ∃ line ∈ lines, ∃ state, ShiftLine line.toList state) (r r' : ShiftRecord) :
    lines.foldl observe r = lines.foldl observe r' := by
  induction lines generalizing r r' with
  | nil =>
    obtain ⟨line, hmem, -⟩ := h
    exact absurd hmem List.not_mem_nil
  | cons first lines ih =>
    -- the records meet at the first line only if no later line is a shift
    by_cases hlines : ∃ line ∈ lines, ∃ state, ShiftLine line.toList state
    · exact ih hlines _ _
    · obtain ⟨line, hmem, state, hshift⟩ := h
      rcases List.mem_cons.mp hmem with rfl | hmem
      · rw [List.foldl_cons, List.foldl_cons, observe_of_shift hshift, observe_of_shift hshift]
      · exact absurd ⟨line, hmem, state, hshift⟩ hlines

theorem ofLog_eq {lines : List String} {last : Option StateId} {skipped : Nat}
    (h : LogTells lines last skipped) : ofLog lines = ⟨last, UInt32.ofNatClamp skipped⟩ := by
  have hrecord (r : ShiftRecord) (hlast : r.last = last)
      (hskipped : r.skipped.toNat = min skipped (UInt32.size - 1)) :
      r = ⟨last, UInt32.ofNatClamp skipped⟩ := by
    obtain ⟨_, count⟩ := r
    obtain rfl : count = UInt32.ofNatClamp skipped :=
      UInt32.toNat_inj.mp (hskipped.trans (toNat_ofNatClamp skipped).symm)
    rw [← hlast]
  cases h with
  | @shifted before after line state hshift hafter =>
    rw [ofLog, List.foldl_append, List.foldl_cons, observe_of_shift hshift]
    obtain ⟨hlast, hskipped⟩ := foldl_observe_of_not_shift hafter ⟨some state, 0⟩
    exact hrecord _ hlast (hskipped.trans (by rw [UInt32.toNat_zero, Nat.zero_add]))
  | unshifted hnone =>
    obtain ⟨hlast, hskipped⟩ := foldl_observe_of_not_shift hnone empty
    exact hrecord _ hlast (hskipped.trans (by rw [empty, UInt32.toNat_zero, Nat.zero_add]))

end ShiftRecord

theorem LogTells.range {lines : List String} {state : StateId} {skipped : Nat}
    (h : LogTells lines (some state) skipped) : 0 < state.toNat ∧ state.toNat < 65535 := by
  cases h with
  | @shifted _ _ line _ hshift _ =>
    generalize line.toList = cs at hshift
    cases hshift with
    | intro _ _ _ _ hpos hlt => exact ⟨hpos, hlt⟩

theorem exists_logTells (lines : List String) : ∃ last skipped, LogTells lines last skipped := by
  induction lines with
  | nil => exact ⟨none, _, .unshifted fun _ h => absurd h List.not_mem_nil⟩
  | cons line lines ih =>
    obtain ⟨last, skipped, h⟩ := ih
    cases h with
    | @shifted before after line' state hshift hafter =>
      exact ⟨some state, _, @LogTells.shifted (line :: before) after line' state hshift hafter⟩
    | unshifted hnone =>
      cases hline : shiftTarget? line with
      | some state =>
        exact ⟨some state, _,
          @LogTells.shifted [] lines line state (shiftTarget?_eq_some_iff.mp hline) hnone⟩
      | none =>
        have hline' := shiftTarget?_eq_none_iff.mp hline
        exact ⟨none, _, .unshifted (List.forall_mem_cons.mpr ⟨hline', hnone⟩)⟩

/-- The record of a log holds the target of its last shift, and the number of skipped tokens that
are told of behind that shift, or at all if there is none, up to the last word. A shift is told by a
line of the grammar and by no other. Lines that only start like one change nothing, nor do other
lines that do not tell of a skipped token. Whatever comes before a shift is forgotten. -/
theorem ofLog_tells_lastShift :
    (∀ lines, ∃ last skipped, LogTells lines last skipped) ∧
    (∀ lines last skipped, LogTells lines last skipped →
      (ShiftRecord.ofLog lines).last = last ∧
        (ShiftRecord.ofLog lines).skipped.toNat = min (UInt32.size - 1) skipped) ∧
    (∀ line state, shiftTarget? line = some state ↔ ShiftLine line.toList state) ∧
    (∀ line, isSkip line ↔ "skip_token".toList <+: line.toList) ∧
    (∀ (r : ShiftRecord) line, (∀ state, ¬ ShiftLine line.toList state) →
      "shift state:".toList <+: line.toList ∨ ¬ "skip_token".toList <+: line.toList →
        r.observe line = r) ∧
    ∀ before after, (∃ line ∈ after, ∃ state, ShiftLine line.toList state) →
      ShiftRecord.ofLog (before ++ after) = ShiftRecord.ofLog after := by
  refine ⟨exists_logTells, fun lines last skipped hlog => ?_,
    fun line state => shiftTarget?_eq_some_iff, fun line => isSkip_iff,
    fun r line hline hother => ?_, fun before after hshift => ?_⟩
  · rw [ShiftRecord.ofLog_eq hlog]
    exact ⟨rfl, (toNat_ofNatClamp skipped).trans (Nat.min_comm _ _)⟩
  · refine ShiftRecord.observe_of_other hline ?_ r
    rcases hother with hstart | hskip
    · exact not_isSkip_of_shiftState hstart
    · exact Bool.eq_false_iff.mpr (mt isSkip_iff.mp hskip)
  · rw [ShiftRecord.ofLog, List.foldl_append]
    exact ShiftRecord.foldl_observe_of_shift hshift _ _

/-- A shift with a sign, zeros and blanks, then two lines that name numbers of no state. -/
theorem ofLog_tells_lastShift_signed :
    let before := ["shift state:7", "skip_token character:'x'"]
    let after := ["shift state: +0012 ", "shift state:65535", "skip_token", "shift state:0"]
    LogTells after (some (.ofNat 12)) 1 ∧
      (ShiftRecord.ofLog after).last = some (.ofNat 12) ∧
      (ShiftRecord.ofLog after).skipped.toNat = min (UInt32.size - 1) 1 ∧
      ShiftRecord.observe ⟨some (.ofNat 12), 1⟩ "shift state:0" = ⟨some (.ofNat 12), 1⟩ ∧
      ShiftRecord.ofLog (before ++ after) = ShiftRecord.ofLog after := by
  intro before after
  have hshift : ShiftLine "shift state: +0012 ".toList (.ofNat 12) :=
    shiftTarget?_eq_some_iff.mp (by decide)
  have hnone : ∀ line ∈ ["shift state:65535", "skip_token", "shift state:0"],
      ∀ state, ¬ ShiftLine line.toList state := fun line hmem => by
    rw [← shiftTarget?_eq_none_iff]
    revert line
    decide
  have hlog : LogTells after (some (.ofNat 12)) 1 :=
    @LogTells.shifted [] _ "shift state: +0012 " _ hshift hnone
  obtain ⟨-, htells, -, -, hother, hforgets⟩ := ofLog_tells_lastShift
  obtain ⟨hlast, hskipped⟩ := htells after _ _ hlog
  exact ⟨hlog, hlast, hskipped,
    hother _ _ (hnone _ (by decide)) (.inl (by decide)),
    hforgets before after ⟨_, List.mem_cons_self, _, hshift⟩⟩

end CursorState
