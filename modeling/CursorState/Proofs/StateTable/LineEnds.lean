import CursorState.Proofs.StateTable.Reading
import CursorState.Proofs.Text.Lines

/-! How the lines of a dump are ended does not matter: empty lines are skipped, and the breaks tell
nothing but line numbers. -/
namespace CursorState
open Text

def DumpError.atLine (line : Nat) : DumpError → DumpError
  | stateOutOfRange _ number => stateOutOfRange line number
  | valueOutOfRange _ number => valueOutOfRange line number

theorem DumpError.atLine_atLine (e : DumpError) (m n : Nat) :
    (e.atLine m).atLine n = e.atLine n := by
  cases e <;> rfl

namespace DumpReading

theorem mapError_readLine (r : DumpReading) (m n : Nat) (line : List Char) :
    (r.readLine m line).mapError (·.atLine n) = r.readLine n line := by
  unfold readLine
  split
  · split <;> rfl
  · split <;> rfl
  · rfl
  · rfl

theorem readLines_cons_empty (r : DumpReading) (n : Nat) (lines : List (List Char)) :
    r.readLines n ([] :: lines) = r.readLines (n + 1) lines := rfl

/-- Without its empty lines, a dump is read as before, but for the line that an error names. -/
theorem mapError_readLines_filter (r : DumpReading) (m n : Nat) (lines : List (List Char)) :
    (r.readLines m lines).mapError (·.atLine 0) =
      (r.readLines n (lines.filter (· ≠ []))).mapError (·.atLine 0) := by
  induction lines generalizing r m n with
  | nil => rfl
  | cons line lines ih =>
    by_cases hne : line = []
    · subst hne
      rw [readLines_cons_empty]
      exact ih r (m + 1) n
    · have hkeep : (line :: lines).filter (· ≠ []) = line :: lines.filter (· ≠ []) :=
        List.filter_cons_of_pos (decide_eq_true hne)
      have hsame := r.mapError_readLine m n line
      rw [hkeep, readLines, readLines, ← hsame]
      cases r.readLine m line with
      | error e => exact congrArg Except.error (e.atLine_atLine n 0).symm
      | ok r' => exact ih r' (m + 1) (n + 1)

end DumpReading

namespace StateTable

theorem mapError_ofLines (lines : List (List Char)) :
    (ofLines lines).mapError (·.atLine 0) =
      ((DumpReading.start.readLines 1 lines).mapError (·.atLine 0)).map DumpReading.table := by
  rw [ofLines]
  cases DumpReading.start.readLines 1 lines <;> rfl

theorem ofLines_congr {lines lines' : List (List Char)}
    (h : lines.filter (· ≠ []) = lines'.filter (· ≠ [])) :
    (ofLines lines).mapError (·.atLine 0) = (ofLines lines').mapError (·.atLine 0) := by
  rw [mapError_ofLines, mapError_ofLines, DumpReading.mapError_readLines_filter _ 1 1, h,
    ← DumpReading.mapError_readLines_filter]

theorem ofLines_eq_ok_congr {lines lines' : List (List Char)} {t : StateTable}
    (h : lines.filter (· ≠ []) = lines'.filter (· ≠ [])) :
    ofLines lines = .ok t ↔ ofLines lines' = .ok t := by
  have hok (x : Except DumpError StateTable) : x.mapError (·.atLine 0) = .ok t ↔ x = .ok t := by
    cases x <;> simp [Except.mapError]
  rw [← hok, ofLines_congr h, hok]

theorem ofLines_concat_empty (lines : List (List Char)) :
    ofLines (lines ++ [[]]) = ofLines lines := by
  rw [ofLines, ofLines, DumpReading.readLines_append]
  cases DumpReading.start.readLines 1 lines <;> rfl

theorem ofDump_eq_ofLines {lines breaks : List (List Char)} {text : String}
    (h : Terminated lines breaks text.toList) (hapart : ¬ Fuses lines breaks) :
    ofDump text = ofLines lines := by
  rw [ofDump]
  rcases h.splitLines_eq hapart with hlines | hlines
  · rw [hlines]
  · rw [← hlines, ofLines_concat_empty]

/-- Two texts of the same lines, ended in whatever ways, give the same table, or the same error but
for the line that it names. It names the same line unless breaks fuse. -/
theorem ofDump_independent_of_breaks {lines breaks breaks' : List (List Char)} {text text' : String}
    (h : Terminated lines breaks text.toList) (h' : Terminated lines breaks' text'.toList) :
    (ofDump text).mapError (·.atLine 0) = (ofDump text').mapError (·.atLine 0) ∧
      (¬ Fuses lines breaks → ¬ Fuses lines breaks' → ofDump text = ofDump text') := by
  constructor
  · exact ofLines_congr (h.filter_splitLines.trans h'.filter_splitLines.symm)
  · intro hapart hapart'
    rw [ofDump_eq_ofLines h hapart, ofDump_eq_ofLines h' hapart']

/-- A carriage return and a line feed fuse in one of the texts, and the other ends its last line. -/
theorem ofDump_independent_of_breaks_fused :
    let first := "State 1".toList
    let last := "State ٣".toList
    let lines := [first, [], last]
    let breaks := [['\r'], ['\n'], []]
    let breaks' := [['\u2028'], ['\x0b'], ['\r', '\n']]
    let text := "State 1\r\nState ٣"
    let text' := "State 1\u2028\x0bState ٣\r\n"
    Terminated lines breaks text.toList ∧ Terminated lines breaks' text'.toList ∧
      ofDump text = .error (.stateOutOfRange 2 "٣") ∧
      ofDump text' = .error (.stateOutOfRange 3 "٣") ∧
      (ofDump text).mapError (·.atLine 0) = (ofDump text').mapError (·.atLine 0) := by
  intro first last lines breaks breaks' text text'
  have h : Terminated lines breaks (first ++ ['\r'] ++ ([] ++ ['\n'] ++ last)) :=
    .cons (by decide) (by decide) (.cons (by decide) (by decide) (.last (by decide)))
  have h' : Terminated lines breaks'
      (first ++ ['\u2028'] ++ ([] ++ ['\x0b'] ++ (last ++ ['\r', '\n'] ++ []))) :=
    .cons (by decide) (by decide)
      (.cons (by decide) (by decide) (.cons (by decide) (by decide) .nil))
  have htext : first ++ ['\r'] ++ ([] ++ ['\n'] ++ last) = text.toList := by decide
  have htext' : first ++ ['\u2028'] ++ ([] ++ ['\x0b'] ++ (last ++ ['\r', '\n'] ++ [])) =
      text'.toList := by decide
  rw [htext] at h
  rw [htext'] at h'
  have herror : ofDump "State 1\r\nState ٣" = .error (.stateOutOfRange 2 "٣") := rfl
  have herror' : ofDump "State 1\u2028\x0bState ٣\r\n" = .error (.stateOutOfRange 3 "٣") := rfl
  exact ⟨h, h', herror, herror', (ofDump_independent_of_breaks h h').1⟩

end StateTable
end CursorState
