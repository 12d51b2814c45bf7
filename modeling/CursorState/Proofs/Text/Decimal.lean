import Mathlib.Data.List.TakeDrop
import CursorState.Text.DecimalDigit
import CursorState.Text.Lines

/-! Decimal numbers: what digits stand for, and that a number is read back from its decimal. -/
namespace CursorState
open Text

def Denotes (digits : List Char) (n : Nat) : Prop :=
  digits ≠ [] ∧ (∀ c ∈ digits, isAsciiDigit c) ∧ digitsValue digits = n

theorem readBelow_eq_some_iff {bound n : Nat} {digits : List Char} :
    readBelow bound digits = some n ↔ Denotes digits n ∧ n < bound := by
  rw [readBelow, Option.ite_none_right_eq_some, Option.some.injEq, List.all_eq_true]
  constructor
  · rintro ⟨⟨hne, hall, hlt⟩, rfl⟩
    exact ⟨⟨hne, hall, rfl⟩, hlt⟩
  · rintro ⟨⟨hne, hall, rfl⟩, hlt⟩
    exact ⟨⟨hne, hall, hlt⟩, rfl⟩

end CursorState

namespace CursorState.Text

theorem span_run_append {p : Char → Bool} {run rest : List Char} (h : ∀ c ∈ run, p c)
    (hrest : ∀ c ∈ rest.head?, p c = false) : (run ++ rest).span p = (run, rest) := by
  have hstop : rest.takeWhile p = [] ∧ rest.dropWhile p = rest := by
    cases rest with
    | nil => exact ⟨rfl, rfl⟩
    | cons c cs => simp [hrest c rfl]
  rw [List.span_eq_takeWhile_dropWhile, List.takeWhile_append_of_pos h,
    List.dropWhile_append_of_pos h, hstop.1, hstop.2, List.append_nil]

theorem forall_mem_head?_cons {P : Char → Prop} {c : Char} (h : P c) (cs : List Char) :
    ∀ d ∈ (c :: cs).head?, P d :=
  fun _ hd => Option.some.inj hd ▸ h

theorem run_append_inj {p : Char → Bool} {run run' rest rest' : List Char} (h : ∀ c ∈ run, p c)
    (h' : ∀ c ∈ run', p c) (hrest : ∀ c ∈ rest.head?, p c = false)
    (hrest' : ∀ c ∈ rest'.head?, p c = false) (heq : run ++ rest = run' ++ rest') :
    run = run' ∧ rest = rest' := by
  have hspan := congrArg (List.span p) heq
  rw [span_run_append h hrest, span_run_append h' hrest'] at hspan
  exact Prod.mk.inj hspan

theorem isAsciiDigit_eq_isDigit (c : Char) : isAsciiDigit c = c.isDigit := rfl

theorem toNat_of_isDigit {c : Char} (h : c.isDigit) : 48 ≤ c.toNat ∧ c.toNat ≤ 57 := by
  simpa [Char.isDigit, UInt32.le_iff_toNat_le] using h

theorem isDecimalDigit_of_isDigit {c : Char} (h : c.isDigit) : isDecimalDigit c := by
  have := toNat_of_isDigit h
  simp only [isDecimalDigit, zeroDigits, List.any_cons, Bool.or_eq_true, Bool.and_eq_true,
    decide_eq_true_eq]
  left
  omega

theorem not_isLineBreak_of_isDigit {c : Char} (h : c.isDigit) : isLineBreak c = false := by
  rw [Bool.eq_false_iff]
  intro hb
  simp only [isLineBreak, Bool.or_eq_true, beq_iff_eq] at hb
  rcases hb with ((((((((rfl | rfl) | rfl) | rfl) | rfl) | rfl) | rfl) | rfl) | rfl) | rfl <;>
    exact absurd h (by decide)

theorem digitsValue_toDigits (n : Nat) : digitsValue (Nat.toDigits 10 n) = n :=
  Nat.ofDigitChars_ten_toDigits

theorem isDigit_of_mem_decimal {n : Nat} {c : Char} (h : c ∈ Nat.toDigits 10 n) : c.isDigit :=
  Nat.isDigit_of_mem_toDigits (by decide) (by decide) h

theorem denotes_toDigits (n : Nat) : Denotes (Nat.toDigits 10 n) n :=
  ⟨Nat.toDigits_ne_nil,
    fun c hc => (isAsciiDigit_eq_isDigit c).trans (isDigit_of_mem_decimal hc),
    digitsValue_toDigits n⟩

/-- A decimal is told from what follows it by a character that is no digit. -/
theorem toDigits_append_cons_inj {m n : Nat} {c : Char} {rest rest' : List Char}
    (hc : c.isDigit = false)
    (h : Nat.toDigits 10 m ++ c :: rest = Nat.toDigits 10 n ++ c :: rest') :
    m = n ∧ rest = rest' := by
  obtain ⟨hdigits, hrests⟩ := run_append_inj (fun _ => isDigit_of_mem_decimal)
    (fun _ => isDigit_of_mem_decimal) (forall_mem_head?_cons hc rest)
    (forall_mem_head?_cons hc rest') h
  have hvalue := congrArg digitsValue hdigits
  rw [digitsValue_toDigits, digitsValue_toDigits] at hvalue
  exact ⟨hvalue, (List.cons.inj hrests).2⟩

end CursorState.Text
