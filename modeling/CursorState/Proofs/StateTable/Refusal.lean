import Mathlib.Data.Nat.Find
import CursorState.Proofs.StateTable.NextLine
import CursorState.Proofs.Text.Lines

/-! Dumps that are refused: which lines offend, and that the error is the one of the first of
them. -/
namespace CursorState
open Text

def Fits (bound : Nat) (digits : List Char) : Prop :=
  ∃ n ≤ bound, Denotes digits n

/-- `LineRefused opened n line e`: line number `n` is refused with `e`, where `opened` tells whether
a header stands before it. -/
inductive LineRefused (opened : Prop) (n : Nat) (line : List Char) : DumpError → Prop
  | header {digits : List Char} (hline : HeaderLine line digits) (hfits : ¬ Fits 65535 digits) :
      LineRefused opened n line (.stateOutOfRange n (String.ofList digits))
  | item {inner digits : List Char} (hopened : opened) (hline : ItemLine line inner digits)
      (hfits : ¬ Fits 18446744073709551615 digits) :
      LineRefused opened n line (.valueOutOfRange n (String.ofList digits))

/-- Line `i`, counted from 0, is refused with `e`. -/
def Refused (lines : List (List Char)) (i : Nat) (e : DumpError) : Prop :=
  LineAt (fun line => LineRefused (∃ j < i, LineAt IsHeader lines j) (i + 1) line e) lines i

def Offends (lines : List (List Char)) (i : Nat) : Prop := ∃ e, Refused lines i e

def FirstRefusal (lines : List (List Char)) (e : DumpError) : Prop :=
  ∃ i, Refused lines i e ∧ ∀ j < i, ¬ Offends lines j

def DumpError.line : DumpError → Nat
  | stateOutOfRange line _ | valueOutOfRange line _ => line

theorem readBelow_eq_none_iff {bound : Nat} {digits : List Char} :
    readBelow (bound + 1) digits = none ↔ ¬ Fits bound digits := by
  rw [Option.eq_none_iff_forall_not_mem]
  refine not_exists.symm.trans (not_congr (exists_congr fun n => ?_))
  rw [Option.mem_def, readBelow_eq_some_iff, Nat.lt_succ_iff, and_comm]

section Lines
variable {Q : List Char → Prop} {before more : List (List Char)} {line : List Char}

theorem lineAt_length : LineAt Q (before ++ line :: more) before.length ↔ Q line := by
  simp [LineAt]

theorem exists_lineAt_lt_length :
    (∃ j < before.length, LineAt Q (before ++ more) j) ↔ ∃ line ∈ before, Q line := by
  constructor
  · rintro ⟨j, hj, hat⟩
    obtain ⟨line, hline, hQ⟩ := (lineAt_append_of_lt hj).mp hat
    exact ⟨line, List.mem_of_getElem? hline, hQ⟩
  · rintro ⟨line, hmem, hQ⟩
    obtain ⟨j, hline⟩ := List.mem_iff_getElem?.mp hmem
    have hat : LineAt Q before j := ⟨line, hline, hQ⟩
    exact ⟨j, hat.lt, (lineAt_append_of_lt hat.lt).mpr hat⟩

end Lines

namespace DumpReading

variable {r r' : DumpReading} {n : Nat} {line : List Char} {before rest : List (List Char)}
  {e : DumpError}

theorem readLine_eq_error_iff :
    r.readLine n line = .error e ↔ LineRefused r.current.isSome n line e := by
  constructor
  · intro h
    unfold readLine at h
    split at h
    · next digits hline =>
      split at h
      · cases h
      · next hnone =>
        cases h
        exact .header (DumpLine.ofChars_eq_header_iff.mp hline) (readBelow_eq_none_iff.mp hnone)
    · next inner digits id hline hcurrent =>
      split at h
      · cases h
      · next hnone =>
        cases h
        rw [hcurrent]
        exact .item rfl (DumpLine.ofChars_eq_item_iff.mp hline) (readBelow_eq_none_iff.mp hnone)
    · cases h
    · cases h
  · rintro (⟨hline, hfits⟩ | ⟨hopened, hline, hfits⟩)
    · have hnone := readBelow_eq_none_iff.mpr hfits
      simp only [readLine, DumpLine.ofChars_eq_header_iff.mpr hline]
      rw [hnone]
    · have hnone := readBelow_eq_none_iff.mpr hfits
      obtain ⟨id, hid⟩ := Option.isSome_iff_exists.mp hopened
      simp only [readLine, DumpLine.ofChars_eq_item_iff.mpr hline, hid]
      rw [hnone]

theorem current_readLine (h : r.readLine n line = .ok r') :
    r'.current.isSome ↔ r.current.isSome ∨ IsHeader line := by
  rcases readLine_cases h with ⟨id, hnames, rfl⟩ | ⟨item, id, -, hcurrent, rfl⟩ | ⟨hheader, -, rfl⟩
  · simp [hnames.isHeader]
  · simp [hcurrent]
  · simp [hheader]

theorem refused_length_iff (h : r.current.isSome ↔ ∃ line ∈ before, IsHeader line) :
    Refused (before ++ line :: rest) before.length e ↔
      r.readLine (before.length + 1) line = .error e := by
  rw [readLine_eq_error_iff, Refused, lineAt_length, exists_lineAt_lt_length, h]

/-- Once the lines before are read, reading the rest fails at the first line that offends. -/
theorem readLines_eq_error_iff (h : r.current.isSome ↔ ∃ line ∈ before, IsHeader line)
    (hfine : ∀ i < before.length, ¬ Offends (before ++ rest) i) :
    r.readLines (before.length + 1) rest = .error e ↔ FirstRefusal (before ++ rest) e := by
  -- on the lines that are left; none of those before them offends
  induction rest generalizing before r with
  | nil =>
    refine iff_of_false (fun h => by cases h) ?_
    rintro ⟨i, hi, -⟩
    have hlt := hi.lt
    rw [List.append_nil] at hlt
    exact hfine i hlt ⟨e, hi⟩
  | cons line rest ih =>
    have hrefused := @refused_length_iff r line before rest
    rw [readLines]
    cases hline : r.readLine (before.length + 1) line with
    | error e' =>
      have hlast : Refused (before ++ line :: rest) before.length e' := (hrefused h).mpr hline
      constructor
      · intro he
        cases he
        exact ⟨before.length, hlast, hfine⟩
      · rintro ⟨i, hi, hfirst⟩
        rcases Nat.lt_trichotomy i before.length with hlt | rfl | hgt
        · exact absurd ⟨e, hi⟩ (hfine i hlt)
        · cases hline.symm.trans ((hrefused h).mp hi)
          rfl
        · exact absurd ⟨e', hlast⟩ (hfirst _ hgt)
    | ok r' =>
      have h' : r'.current.isSome ↔ ∃ l ∈ before ++ [line], IsHeader l := by
        rw [current_readLine hline, h]
        simp [or_and_right, exists_or]
      have hfine' : ∀ i < (before ++ [line]).length, ¬ Offends (before ++ [line] ++ rest) i := by
        intro i hi
        rw [List.append_assoc]
        rw [List.length_append, List.length_singleton] at hi
        rcases Nat.lt_succ_iff_lt_or_eq.mp hi with hlt | rfl
        · exact hfine i hlt
        · rintro ⟨e', he'⟩
          have := (hrefused h).mp he'
          rw [hline] at this
          cases this
      have hrest := ih h' hfine'
      rw [List.length_append, List.length_singleton, List.append_assoc] at hrest
      exact hrest

end DumpReading

theorem Refused.line_eq {lines : List (List Char)} {i : Nat} {e : DumpError}
    (h : Refused lines i e) : e.line = i + 1 := by
  obtain ⟨line, -, hrefused⟩ := h
  cases hrefused <;> rfl

theorem exists_firstRefusal {lines : List (List Char)} (h : ∃ i, Offends lines i) :
    ∃ e, FirstRefusal lines e := by
  classical
  obtain ⟨e, he⟩ := Nat.find_spec h
  exact ⟨e, Nat.find h, he, fun _ => Nat.find_min h⟩

theorem not_offends_of_item {lines : List (List Char)} {i : Nat} (hitem : LineAt IsItem lines i)
    (hfirst : ∀ j < i, ¬ LineAt IsHeader lines j) : ¬ Offends lines i := by
  rintro ⟨e, line, hline, hrefused⟩
  obtain ⟨line', hline', hitem⟩ := hitem
  obtain rfl : line = line' := Option.some.inj (hline.symm.trans hline')
  cases hrefused with
  | header hheader => exact IsHeader.not_isItem ⟨_, hheader⟩ hitem
  | item hopened =>
    obtain ⟨j, hj, hat⟩ := hopened
    exact hfirst j hj hat

theorem digitsValue_zeros_append (k : Nat) (digits : List Char) :
    digitsValue (List.replicate k '0' ++ digits) = digitsValue digits := by
  induction k with
  | zero => rfl
  | succ k ih => exact ih

theorem Denotes.zeros_append {digits : List Char} {n : Nat} (h : Denotes digits n) (k : Nat) :
    Denotes (List.replicate k '0' ++ digits) n := by
  obtain ⟨hne, hdigits, hvalue⟩ := h
  refine ⟨List.append_ne_nil_of_right_ne_nil _ hne, ?_, ?_⟩
  · refine List.forall_mem_append.mpr ⟨fun c hc => ?_, hdigits⟩
    rw [List.eq_of_mem_replicate hc]
    rfl
  · rw [digitsValue_zeros_append, hvalue]

namespace StateTable

theorem ofLines_eq_error_iff {lines : List (List Char)} {e : DumpError} :
    ofLines lines = .error e ↔ DumpReading.start.readLines 1 lines = .error e := by
  rw [ofLines]
  cases DumpReading.start.readLines 1 lines <;> simp [Except.map]

theorem ofDump_eq_error_iff {text : String} {e : DumpError} :
    ofDump text = .error e ↔ FirstRefusal (splitLines text.toList) e := by
  have hnone : DumpReading.start.current.isSome ↔ ∃ line ∈ [], IsHeader line := by
    simp [DumpReading.start]
  have hfine (lines : List (List Char)) : ∀ i < ([] : List (List Char)).length, ¬ Offends lines i :=
    fun i hi => absurd hi (Nat.not_lt_zero i)
  rw [ofDump, ofLines_eq_error_iff]
  exact DumpReading.readLines_eq_error_iff hnone (hfine _)

theorem ofDump_append_of_error {text : String} {e : DumpError} (h : ofDump text = .error e)
    (hend : ∀ c ∈ text.toList.getLast?, isLineBreak c) (more : String) :
    ofDump (text ++ more) = .error e := by
  obtain ⟨rest, hlines⟩ := splitLines_append_of_ended hend more.toList
  rw [ofDump, ofLines_eq_error_iff] at h ⊢
  rw [String.toList_append, hlines, DumpReading.readLines_append, h]
  rfl

/-- A dump is refused exactly if one of its lines offends, and the error is that of the first such
line. Items before any header do not offend, and zeros before a number do not matter. Once the line
of the error is ended, the error stays whatever follows. -/
theorem ofDump_refuses_firstOffending (text : String) :
    let lines := splitLines text.toList
    (∃ breaks, LinesOf text.toList lines breaks) ∧
      ((∃ e, ofDump text = .error e) ↔ ∃ i, Offends lines i) ∧
      (∀ e, ofDump text = .error e ↔ FirstRefusal lines e) ∧
      (∀ i, LineAt IsItem lines i → (∀ j < i, ¬ LineAt IsHeader lines j) →
        ∀ e, ofDump text = .error e → e.line ≠ i + 1) ∧
      (∀ digits n k, Denotes digits n → Denotes (List.replicate k '0' ++ digits) n) ∧
      ∀ e, ofDump text = .error e → (∃ c ∈ text.toList.getLast?, isLineBreak c) →
        ∀ more, ofDump (text ++ more) = .error e := by
  intro lines
  refine ⟨linesOf_splitLines text.toList, ⟨?_, ?_⟩, fun e => ofDump_eq_error_iff, ?_,
    fun digits n k h => h.zeros_append k, ?_⟩
  · rintro ⟨e, he⟩
    obtain ⟨i, hi, -⟩ := ofDump_eq_error_iff.mp he
    exact ⟨i, e, hi⟩
  · intro h
    exact (exists_firstRefusal h).imp fun e he => ofDump_eq_error_iff.mpr he
  · intro i hitem hfirst e he hline
    obtain ⟨i', hi', -⟩ := ofDump_eq_error_iff.mp he
    obtain rfl : i' = i := Nat.succ.inj (hi'.line_eq.symm.trans hline)
    exact not_offends_of_item hitem hfirst ⟨e, hi'⟩
  · rintro e he ⟨c, hc, hbreak⟩ more
    refine ofDump_append_of_error he (fun c' hc' => ?_) more
    rwa [Option.mem_unique hc' hc]

/-- The first item is under no header, and an empty line counts. -/
example : ofDump "[x] : ٣\r\n\u2028State 1\n[y] : ٣" = .error (.valueOutOfRange 4 "٣") := rfl

end StateTable
end CursorState
