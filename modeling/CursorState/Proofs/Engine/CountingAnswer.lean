import Mathlib.Data.List.TakeWhile
import CursorState.Engine.Counting

/-! What a session of the counting engine answers, told by the bytes that it parsed last: which of
them spoil the parse, how many error tokens end it, and how many bytes come before those. -/
namespace CursorState

/-- `EndsInErrors text n`: the error tokens at the end of a text are `n` in number. -/
def EndsInErrors (text : List UInt8) (n : Nat) : Prop :=
  ∃ before, text = before ++ List.replicate n 0x23 ∧ before.getLast? ≠ some 0x23

theorem endsInErrors_trailingErrors (text : List UInt8) :
    EndsInErrors text (trailingErrors text) := by
  have hrun : text.reverse.takeWhile (· == 0x23) = List.replicate (trailingErrors text) 0x23 :=
    List.eq_replicate_of_mem fun c hc => by simpa using List.mem_takeWhile_imp hc
  have hsplit : text.reverse = List.replicate (trailingErrors text) 0x23 ++
      text.reverse.dropWhile (· == 0x23) := by
    rw [← hrun, List.takeWhile_append_dropWhile]
  refine ⟨(text.reverse.dropWhile (· == 0x23)).reverse, ?_, ?_⟩
  · calc text = text.reverse.reverse := (List.reverse_reverse text).symm
      _ = _ := congrArg List.reverse hsplit
      _ = _ := by rw [List.reverse_append, List.reverse_replicate]
  · rw [List.getLast?_reverse]
    intro hlast
    have hstop := List.head?_dropWhile_not (· == (0x23 : UInt8)) text.reverse
    rw [hlast] at hstop
    exact absurd hstop (by decide)

theorem EndsInErrors.eq_trailingErrors {text : List UInt8} {n : Nat} (h : EndsInErrors text n) :
    n = trailingErrors text := by
  obtain ⟨before, rfl, hlast⟩ := h
  rw [← List.head?_reverse] at hlast
  -- backwards, the run ends where `before` ends
  have hstop : before.reverse.takeWhile (· == 0x23) = [] := by
    cases hbefore : before.reverse with
    | nil => rfl
    | cons c rest =>
      rw [hbefore, List.head?_cons, ne_eq, Option.some.injEq] at hlast
      exact List.takeWhile_cons_of_neg (by simpa using hlast)
  rw [trailingErrors, List.reverse_append, List.reverse_replicate,
    List.takeWhile_append_of_pos (by simp), hstop, List.append_nil, List.length_replicate]

theorem trailingErrors_le_length (text : List UInt8) : trailingErrors text ≤ text.length := by
  rw [← List.length_reverse]
  exact (List.takeWhile_prefix _).length_le

theorem countingAnswer_of_mem {parsed : List UInt8} (h : 0x21 ∈ parsed) :
    countingAnswer (some parsed) = .sentinel := by
  cases parsed with
  | nil => cases h
  | cons b bytes => exact if_pos (List.contains_iff_mem.mpr h)

theorem countingAnswer_of_notMem {parsed : List UInt8} (hne : parsed ≠ []) (h : 0x21 ∉ parsed) :
    countingAnswer (some parsed) =
      if trailingErrors parsed = 0 then
        .exact (.ofNat (1 + (parsed.length - trailingErrors parsed)))
      else .backtrack (.ofNat (1 + (parsed.length - trailingErrors parsed)))
        (.ofNat (trailingErrors parsed)) := by
  cases parsed with
  | nil => exact absurd rfl hne
  | cons b bytes => exact if_neg (mt List.contains_iff_mem.mp h)

/-- `CountsAs parsed found`: a session that parsed `parsed` last, if it parsed anything, is asked for
a state and answers `found`. -/
inductive CountsAs : Option (List UInt8) → Found → Prop
  | unparsed : CountsAs none ⟨.ofNat 0, .sentinel, 0⟩
  | spoiled {text : List UInt8} (h : 0x21 ∈ text) : CountsAs (some text) ⟨.ofNat 0, .sentinel, 0⟩
  | empty : CountsAs (some []) ⟨.ofNat 1, .initial, 0⟩
  | exact {text : List UInt8} (hne : text ≠ []) (hclean : 0x21 ∉ text)
      (herrors : EndsInErrors text 0) :
      CountsAs (some text) ⟨.ofNat (1 + text.length), .exact, 0⟩
  | backtrack {text : List UInt8} {n : Nat} (hclean : 0x21 ∉ text) (herrors : EndsInErrors text n)
      (hn : 0 < n) :
      CountsAs (some text) ⟨.ofNat (1 + (text.length - n)), .backtrack, .ofNat n⟩

theorem countsAs_countingAnswer (parsed : Option (List UInt8)) :
    CountsAs parsed (countingAnswer parsed) := by
  cases parsed with
  | none => exact .unparsed
  | some text =>
    by_cases hspoiled : 0x21 ∈ text
    · rw [countingAnswer_of_mem hspoiled]
      exact .spoiled hspoiled
    by_cases hempty : text = []
    · subst hempty
      exact .empty
    have herrors := endsInErrors_trailingErrors text
    rw [countingAnswer_of_notMem hempty hspoiled]
    by_cases hzero : trailingErrors text = 0
    · rw [if_pos hzero, hzero, Nat.sub_zero]
      exact .exact hempty hspoiled (hzero ▸ herrors)
    · rw [if_neg hzero]
      exact .backtrack hspoiled herrors (Nat.pos_of_ne_zero hzero)

/-- The bytes leave no choice between answers. -/
theorem countsAs_iff {parsed : Option (List UInt8)} {f : Found} :
    CountsAs parsed f ↔ f = countingAnswer parsed := by
  constructor
  · intro h
    cases h with
    | unparsed => rfl
    | spoiled h => exact (countingAnswer_of_mem h).symm
    | empty => rfl
    | exact hne hclean herrors =>
      have hzero := herrors.eq_trailingErrors
      rw [countingAnswer_of_notMem hne hclean, if_pos hzero.symm, ← hzero]
      rfl
    | @backtrack text n hclean herrors hn =>
      have hcount := herrors.eq_trailingErrors
      have hne : text ≠ [] := by
        rintro rfl
        exact absurd hcount (Nat.ne_of_gt hn)
      rw [countingAnswer_of_notMem hne hclean, ← hcount, if_neg (Nat.ne_of_gt hn)]
      rfl
  · rintro rfl
    exact countsAs_countingAnswer parsed

end CursorState
