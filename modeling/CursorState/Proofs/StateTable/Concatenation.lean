import CursorState.Proofs.StateTable.LineEnds
import CursorState.Proofs.StateTable.Merge
import CursorState.Proofs.StateTable.TableOfDump

/-! Dumps one after the other: the second goes on with the table of the first. -/
namespace CursorState
open Text

/-- Each item stands somewhere below a header. -/
def ItemsUnderHeaders (lines : List (List Char)) : Prop :=
  ∀ i, LineAt IsItem lines i → ∃ j < i, LineAt IsHeader lines j

theorem ItemsUnderHeaders.of_header {line : List Char} {rest : List (List Char)}
    (h : IsHeader line) : ItemsUnderHeaders (line :: rest) := by
  intro i hi
  cases i with
  | zero =>
    obtain ⟨line', hline, hitem⟩ := hi
    obtain rfl := Option.some.inj hline
    exact absurd hitem h.not_isItem
  | succ i => exact ⟨0, Nat.succ_pos i, line, rfl, h⟩

theorem ItemsUnderHeaders.of_cons {line : List Char} {rest : List (List Char)}
    (h : ItemsUnderHeaders (line :: rest)) (hheader : ¬ IsHeader line) :
    ¬ IsItem line ∧ ItemsUnderHeaders rest := by
  constructor
  · intro hitem
    obtain ⟨j, hj, -⟩ := h 0 ⟨line, rfl, hitem⟩
    exact absurd hj (Nat.not_lt_zero j)
  · intro i hi
    obtain ⟨j, hj, hat⟩ := h (i + 1) hi
    cases j with
    | zero =>
      obtain ⟨line', hline, hheader'⟩ := hat
      obtain rfl := Option.some.inj hline
      exact absurd hheader' hheader
    | succ j => exact ⟨j, Nat.lt_of_succ_lt_succ hj, hat⟩

namespace DumpReading

variable {s : StateTable} {r r' : DumpReading} {n : Nat} {line : List Char}
  {rest : List (List Char)}

def onto (r : DumpReading) (s : StateTable) : DumpReading :=
  ⟨s.merge r.table, r.current⟩

theorem nodup_readLine (hr : r.table.ids.Nodup) (h : r.readLine n line = .ok r') :
    r'.table.ids.Nodup := by
  rcases readLine_cases h with ⟨id, -, rfl⟩ | ⟨item, id, -, -, rfl⟩ | ⟨-, -, rfl⟩
  · exact StateTable.nodup_ids_append id [] hr
  · exact StateTable.nodup_ids_append id [item] hr
  · exact hr

/-- A line does the same to a table whatever was there before. -/
theorem readLine_onto (hs : s.ids.Nodup) (hr : r.table.ids.Nodup) (h : r.readLine n line = .ok r')
    (m : Nat) : (r.onto s).readLine m line = .ok (r'.onto s) := by
  rcases readLine_cases h with ⟨id, hnames, rfl⟩ | ⟨item, id, hitem, hcurrent, rfl⟩ |
    ⟨hheader, hitem, rfl⟩
  · rw [readLine_of_namesState hnames, onto, onto, StateTable.merge_append hs hr]
  · rw [onto, hcurrent, readLine_of_holdsItem hitem, onto, StateTable.merge_append hs hr]
  · exact @readLine_of_skipped (r'.onto s) line hheader hitem m

theorem readLines_onto (hs : s.ids.Nodup) (hr : r.table.ids.Nodup)
    (h : r.readLines n rest = .ok r') (m : Nat) :
    (r.onto s).readLines m rest = .ok (r'.onto s) := by
  induction rest generalizing r n m with
  | nil =>
    cases h
    rfl
  | cons line rest ih =>
    rw [readLines] at h ⊢
    cases hline : r.readLine n line with
    | error e =>
      rw [hline] at h
      cases h
    | ok r₁ =>
      rw [hline] at h
      rw [readLine_onto hs hr hline m]
      exact ih (nodup_readLine hr hline) h (m + 1)

theorem table_readLines_of_itemsUnderHeaders {t : StateTable} (hitems : ItemsUnderHeaders rest)
    (h : readLines ⟨t, none⟩ n rest = .ok r') (current : Option StateId) :
    (readLines ⟨t, current⟩ n rest).map table = .ok r'.table := by
  induction rest generalizing n with
  | nil =>
    cases h
    rfl
  | cons line rest ih =>
    rw [readLines] at h ⊢
    cases hline : readLine ⟨t, none⟩ n line with
    | error e =>
      rw [hline] at h
      cases h
    | ok r₁ =>
      rw [hline] at h
      rcases readLine_cases hline with ⟨id, hnames, rfl⟩ | ⟨item, id, -, hcurrent, rfl⟩ |
        ⟨hheader, -, rfl⟩
      · -- from the first header on, both go to the same state
        rw [readLine_of_namesState hnames]
        exact congrArg (Except.map table) h
      · cases hcurrent
      · obtain ⟨hitem, hrest⟩ := hitems.of_cons hheader
        rw [readLine_of_skipped hheader fun h => absurd h hitem]
        exact ih hrest h

end DumpReading
namespace StateTable

theorem exists_reading {text : String} {t : StateTable} (h : ofDump text = .ok t) :
    ∃ r, DumpReading.start.readLines 1 (splitLines text.toList) = .ok r ∧ r.table = t := by
  rw [ofDump, ofLines] at h
  cases hr : DumpReading.start.readLines 1 (splitLines text.toList) with
  | error e =>
    rw [hr] at h
    cases h
  | ok r =>
    rw [hr] at h
    exact ⟨r, rfl, Except.ok.inj h⟩

/-- The second dump is read into the table of the first. -/
theorem ofLines_append {lines lines' : List (List Char)} {r r' : DumpReading}
    (h : DumpReading.start.readLines 1 lines = .ok r)
    (h' : DumpReading.start.readLines 1 lines' = .ok r') (hitems : ItemsUnderHeaders lines') :
    ofLines (lines ++ lines') = .ok (r.table.merge r'.table) := by
  have hr : r.table.ids.Nodup := (ReadingOf.start.readLines h).nodup
  have hstart : DumpReading.start.table.ids.Nodup := List.nodup_nil
  have honto := DumpReading.readLines_onto hr hstart h' (1 + lines.length)
  rw [ofLines, DumpReading.readLines_append, h]
  exact DumpReading.table_readLines_of_itemsUnderHeaders hitems honto r.current

/-- Two dumps with a line feed between them give the merged table, if the second has a header above
each of its items. In it, the states of the first dump come before the other states of the second,
and the items of each state from the first dump before those from the second. -/
theorem ofDump_append_lineFeed {a b : String} {ta tb : StateTable} (ha : ofDump a = .ok ta)
    (hb : ofDump b = .ok tb) (hitems : ItemsUnderHeaders (splitLines b.toList)) :
    ofDump (a ++ "\n" ++ b) = .ok (ta.merge tb) ∧
      (ta.merge tb).entries = (ta.ids ++ tb.ids.filter (· ∉ ta.ids)).map fun id =>
        (id, (ta.items? id).getD [] ++ (tb.items? id).getD []) := by
  obtain ⟨ra, hra, rfl⟩ := exists_reading ha
  obtain ⟨rb, hrb, rfl⟩ := exists_reading hb
  constructor
  · have hlines : (a ++ "\n" ++ b).toList = a.toList ++ '\n' :: b.toList := by simp
    rw [ofDump, hlines, ofLines_eq_ok_congr (filter_splitLines_append_lineFeed a.toList b.toList)]
    exact ofLines_append hra hrb hitems
  · exact entries_merge (ReadingOf.start.readLines hra).nodup (ReadingOf.start.readLines hrb).nodup

/-- The carriage return at the end of the first dump fuses with the line feed, and the second dump
goes on with a state of the first. -/
theorem ofDump_append_lineFeed_reopened :
    let a := "State 1\n[x] : 1\r"
    let b := "State 2\n[y] : 2\nState 1\n[z] : 3"
    let ta : StateTable := ⟨[(⟨1⟩, [⟨"[x]", 1⟩])]⟩
    let tb : StateTable := ⟨[(⟨2⟩, [⟨"[y]", 2⟩]), (⟨1⟩, [⟨"[z]", 3⟩])]⟩
    ofDump a = .ok ta ∧ ofDump b = .ok tb ∧ ItemsUnderHeaders (splitLines b.toList) ∧
      ofDump (a ++ "\n" ++ b) = .ok (ta.merge tb) ∧
      (ta.merge tb).entries = [(⟨1⟩, [⟨"[x]", 1⟩, ⟨"[z]", 3⟩]), (⟨2⟩, [⟨"[y]", 2⟩])] := by
  intro a b ta tb
  have ha : ofDump "State 1\n[x] : 1\r" = .ok ta := rfl
  have hb : ofDump "State 2\n[y] : 2\nState 1\n[z] : 3" = .ok tb := rfl
  have hheader : IsHeader "State 2".toList := ⟨['2'], DumpLine.header?_eq_some_iff.mp rfl⟩
  have hlines : splitLines "State 2\n[y] : 2\nState 1\n[z] : 3".toList =
      ["State 2".toList, "[y] : 2".toList, "State 1".toList, "[z] : 3".toList] := rfl
  have hitems : ItemsUnderHeaders (splitLines b.toList) := by
    rw [hlines]
    exact .of_header hheader
  obtain ⟨hread, hentries⟩ := ofDump_append_lineFeed ha hb hitems
  exact ⟨ha, hb, hitems, hread, hentries⟩

end StateTable
end CursorState
