import Mathlib.Data.List.Basic
import Mathlib.Tactic.SplitIfs
import CursorState.Json.Printer
import CursorState.Proofs.Json.ReadSound

/-! What is printed is a text of the grammar and stands for the value that is printed, so it is read
back to that value. -/
namespace CursorState.Json
open Text

/-! Strings -/

theorem hexDigit_of_lt {n : Nat} (h : n < 16) : HexDigit (hexDigit n) n := by
  have hall : ∀ n < 16, (hexDigit n, n) ∈ hexDigits.zipIdx := by decide
  exact .inl (hall n h)

theorem codeUnit_of_lt {n : Nat} (h : n < 0x20) :
    CodeUnit ['0', '0', hexDigit (n / 16), hexDigit (n % 16)] n := by
  have hzero : HexDigit '0' 0 := @hexDigit_of_lt 0 (by decide)
  have hhigh : HexDigit (hexDigit (n / 16)) (n / 16) := hexDigit_of_lt (by omega)
  have hlow : HexDigit (hexDigit (n % 16)) (n % 16) := hexDigit_of_lt (by omega)
  have hn : 0x1000 * 0 + 0x100 * 0 + 0x10 * (n / 16) + n % 16 = n := by omega
  have hunit := CodeUnit.intro hzero hzero hhigh hlow
  rwa [hn] at hunit

theorem charText_escape (c : Char) : CharText (escape c) c := by
  unfold escape
  split_ifs with hquote hback hbackspace htab hline hpage hreturn hcontrol
  -- all but the last two cases escape one character by a letter
  on_goal 8 => exact .escaped (.unit (codeUnit_of_lt hcontrol))
  on_goal 8 => exact .plain (by omega) hquote hback
  all_goals
    subst c
    exact .escaped (.short (by decide))

theorem stringText_quote (s : String) : StringText (quote s) s := by
  have hchars : ∀ cs : List Char, CharsText (cs.flatMap escape) cs := by
    intro cs
    induction cs with
    | nil => exact .nil
    | cons c cs ih => exact .cons (charText_escape c) ih
  exact .intro (hchars s.toList)

/-! Numbers -/

theorem eq_zero_of_head?_toDigits {n : Nat} (h : (Nat.toDigits 10 n).head? = some '0') :
    n = 0 := by
  induction n using Nat.strongRecOn with
  | ind n ih =>
    by_cases hn : n < 10
    · rw [Nat.toDigits_of_lt_base hn] at h
      simpa using h
    · have hten : 10 ≤ n := by omega
      rw [Nat.toDigits_of_base_le (by decide) hten,
        List.head?_append_of_ne_nil _ Nat.toDigits_ne_nil] at h
      have hzero := ih (n / 10) (by omega) h
      omega

theorem integerText_toDigits (n : Nat) : IntegerText (Nat.toDigits 10 n) := by
  refine ⟨⟨Nat.toDigits_ne_nil, fun c hc => isDigit_of_mem_decimal hc⟩, fun h => ?_⟩
  rw [eq_zero_of_head?_toDigits h, Nat.toDigits_zero]

theorem numberText_render_ofNat (n : Nat) :
    NumberText (NumberToken.ofNat n).render (NumberToken.ofNat n) :=
  @NumberText.intro [] [] (.ofNat n) (integerText_toDigits n) .absent .absent

theorem NumberToken.number?_ofNat {n : Nat} (h : n < UInt64.size) :
    (ofNat n).number? = some (.natural (UInt64.ofNat n)) := by
  have hvalue : digitsValue (ofNat n).integer = n := digitsValue_toDigits n
  have hinteger : (ofNat n).isInteger := rfl
  have hsign : ¬(ofNat n).negative := Bool.false_ne_true
  rw [number?, hvalue, if_pos ⟨hinteger, hsign, h⟩]

/-! Values -/

theorem spaces_newline (depth : Nat) : Spaces (newline depth) := by
  intro c hc
  rcases List.mem_cons.mp hc with rfl | hc
  · decide
  · rw [List.eq_of_mem_replicate hc]
    decide

inductive Value.Proper : Value → Prop
  | null : Proper .null
  | bool (b : Bool) : Proper (.bool b)
  | number {token : NumberToken} (h : NumberText token.render token) : Proper (.number token)
  | string (s : String) : Proper (.string s)
  | array {vs : List Value} (h : ∀ v ∈ vs, Proper v) : Proper (.array vs)
  | object {ms : List (String × Value)} (h : ∀ m ∈ ms, Proper m.2) : Proper (.object ms)

theorem written_elements {inner outer : Nat} (v : Value) (vs : List Value)
    (h : ∀ w ∈ v :: vs, Written (render inner w) (.value w)) :
    Written (newline inner ++ render inner v ++ renderElements inner vs ++ newline outer ++ [']'])
      (.elements (v :: vs)) := by
  induction vs generalizing v with
  | nil =>
    have hv := Written.spaced (spaces_newline inner) (h v List.mem_cons_self)
    simpa [renderElements] using hv.lastElement (spaces_newline outer)
  | cons w vs ih =>
    have hv := Written.spaced (spaces_newline inner) (h v List.mem_cons_self)
    have hvs := ih w fun u hu => h u (List.mem_cons_of_mem v hu)
    simpa [renderElements] using hv.element spaces_nil hvs

theorem memberName_quote (depth : Nat) (key : String) :
    MemberName (newline depth ++ quote key ++ [':']) key := by
  simpa using MemberName.intro (spaces_newline depth) (stringText_quote key) spaces_nil

theorem written_members {inner outer : Nat} (m : String × Value) (ms : List (String × Value))
    (h : ∀ n ∈ m :: ms, Written (render inner n.2) (.value n.2)) :
    Written (newline inner ++ quote m.1 ++ [':', ' '] ++ render inner m.2 ++
      renderMembers inner ms ++ newline outer ++ ['}']) (.members (m :: ms)) := by
  have hblank : Spaces [' '] := by simp [Spaces]
  induction ms generalizing m with
  | nil =>
    have hv := Written.spaced hblank (h m List.mem_cons_self)
    have hname := memberName_quote inner m.1
    simpa [renderMembers] using hv.lastMember hname (spaces_newline outer)
  | cons n ms ih =>
    have hv := Written.spaced hblank (h m List.mem_cons_self)
    have hname := memberName_quote inner m.1
    have hms := ih n fun u hu => h u (List.mem_cons_of_mem m hu)
    simpa [renderMembers] using hv.member hname spaces_nil hms

theorem written_render {v : Value} (h : v.Proper) (depth : Nat) :
    Written (render depth v) (.value v) := by
  induction h generalizing depth with
  | null =>
    rw [render]
    exact .null
  | bool b =>
    cases b with
    | true =>
      rw [render]
      exact .true
    | false =>
      rw [render]
      exact .false
  | number h =>
    rw [render]
    exact .number h
  | string s =>
    rw [render]
    exact .string (stringText_quote s)
  | @array vs _ ih =>
    cases vs with
    | nil =>
      rw [render]
      exact .emptyArray spaces_nil
    | cons v vs =>
      rw [render]
      exact .array (written_elements v vs fun w hw => ih w hw (depth + 1))
  | @object ms _ ih =>
    cases ms with
    | nil =>
      rw [render]
      exact .emptyObject spaces_nil
    | cons m ms =>
      rw [render]
      exact .object (written_members m ms fun n hn => ih n hn (depth + 1))

theorem Value.Proper.isText {v : Value} (h : v.Proper) : IsText v.print.toList v := by
  rw [Value.print, String.toList_ofList]
  simpa using IsText.intro (written_render h 0) spaces_nil

theorem Value.Proper.read?_print {v : Value} (h : v.Proper) : read? v.print.toList = some v :=
  read?_eq_some_iff.mpr h.isText

end CursorState.Json
