import CursorState.Proofs.Text.LinePasses

/-! The partition of a text into its lines and their breaks. There is exactly one, and its lines are
those that splitting finds, be it by characters or by a cursor that counts bytes. -/
namespace CursorState.Text

@[ext]
structure Segment where
  line : List Char
  brk : List Char
  deriving DecidableEq, Repr

def Segment.text (s : Segment) : List Char := s.line ++ s.brk

/-- `Partition text segments`: the text is the segments one after the other. A carriage return takes
a line feed behind it along, and only the last line may lack its break, if it is not empty. -/
inductive Partition : List Char → List Segment → Prop
  | nil : Partition [] []
  | last {line : List Char} (hline : Unbroken line) (hne : line ≠ []) : Partition line [⟨line, []⟩]
  | cons {line brk rest : List Char} {segments : List Segment} (hline : Unbroken line)
      (hbreak : brk ∈ lineBreaks) (hseam : brk = ['\r'] → rest.head? ≠ some '\n')
      (h : Partition rest segments) : Partition (line ++ brk ++ rest) (⟨line, brk⟩ :: segments)

theorem ne_nil_of_mem_lineBreaks {brk : List Char} (h : brk ∈ lineBreaks) : brk ≠ [] := by
  rintro rfl
  exact absurd h (by decide)

theorem isLineBreak_of_mem_lineBreaks {brk : List Char} (h : brk ∈ lineBreaks) :
    ∀ c ∈ brk, isLineBreak c := by
  rcases mem_lineBreaks_iff.mp h with rfl | ⟨c, hc, rfl⟩
  · exact List.forall_mem_cons.mpr ⟨by decide, List.forall_mem_singleton.mpr (by decide)⟩
  · exact List.forall_mem_singleton.mpr hc

theorem LinesOf.exists_partition {text : List Char} {lines breaks : List (List Char)}
    (h : LinesOf text lines breaks) :
    ∃ segments, Partition text segments ∧ segments.map Segment.line = lines := by
  obtain ⟨h, hapart, hlast⟩ := h
  induction h with
  | nil => exact ⟨[], .nil, rfl⟩
  | @last line hline =>
    refine ⟨[⟨line, []⟩], .last hline ?_, rfl⟩
    rintro rfl
    exact hlast (by simp)
  | @cons line brk text lines breaks hline hbreak h ih =>
    obtain ⟨hfirst, hrest⟩ := not_or.mp (mt fuses_cons.mpr hapart)
    obtain ⟨segments, hpartition, rfl⟩ := ih hrest fun hmem => hlast (List.mem_cons_of_mem _ hmem)
    refine ⟨⟨line, brk⟩ :: segments, .cons hline hbreak ?_ hpartition, rfl⟩
    exact fun hcr hhead => hfirst ⟨hcr, h.head?_eq_lineFeed_iff.mp hhead⟩

namespace Partition

variable {text : List Char} {segments segments' : List Segment}

theorem text_eq_nil (h : Partition text []) : text = [] := by
  cases h
  rfl

theorem pass {s : Segment} (h : Partition text (s :: segments)) :
    ∃ rest, text ≠ [] ∧ text = s.text ++ rest ∧ nextLine text = some (s.line, rest) ∧
      Partition rest segments := by
  cases h with
  | last hline hne => exact ⟨[], hne, by simp [Segment.text], nextLine_of_unbroken hline, .nil⟩
  | @cons line brk rest _ hline hbreak hseam h =>
    have hne : line ++ brk ++ rest ≠ [] := by simp [ne_nil_of_mem_lineBreaks hbreak]
    exact ⟨rest, hne, rfl, nextLine_line hline hbreak hseam, h⟩

theorem unique (h : Partition text segments) (h' : Partition text segments') :
    segments = segments' := by
  induction segments generalizing text segments' with
  | nil =>
    cases segments' with
    | nil => rfl
    | cons s' more' =>
      obtain ⟨_, hne, -⟩ := h'.pass
      exact absurd h.text_eq_nil hne
  | cons s more ih =>
    obtain ⟨rest, hne, htext, hpass, hrest⟩ := h.pass
    cases segments' with
    | nil => exact absurd h'.text_eq_nil hne
    | cons s' more' =>
      obtain ⟨rest', -, htext', hpass', hrest'⟩ := h'.pass
      rw [hpass] at hpass'
      obtain ⟨hline, rfl⟩ := Prod.mk.inj (Option.some.inj hpass')
      have hbrk : s.brk = s'.brk := by
        rw [htext', List.append_cancel_right_eq, Segment.text, Segment.text, hline,
          List.append_cancel_left_eq] at htext
        exact htext.symm
      rw [ih hrest hrest', Segment.ext hline hbrk]

theorem linesByByte_eq (h : Partition text segments) :
    linesByByte text = some (segments.map Segment.line) := by
  induction segments generalizing text with
  | nil =>
    rw [h.text_eq_nil]
    exact linesByByte_nil
  | cons s more ih =>
    obtain ⟨rest, hne, -, hpass, hrest⟩ := h.pass
    rw [linesByByte_of_nextLine hne hpass, ih hrest]
    rfl

theorem flatMap_text (h : Partition text segments) : segments.flatMap Segment.text = text := by
  induction h with
  | nil => rfl
  | last hline hne => simp [Segment.text]
  | cons hline hbreak hseam h ih => rw [List.flatMap_cons, ih, Segment.text]

theorem of_mem (h : Partition text segments) {s : Segment} (hs : s ∈ segments) :
    Unbroken s.line ∧ (s.brk ∈ lineBreaks ∨ s.brk = [] ∧ s.line ≠ []) := by
  induction h with
  | nil => cases hs
  | last hline hne =>
    obtain rfl := List.mem_singleton.mp hs
    exact ⟨hline, .inr ⟨rfl, hne⟩⟩
  | cons hline hbreak hseam h ih =>
    rcases List.mem_cons.mp hs with rfl | hs
    · exact ⟨hline, .inl hbreak⟩
    · exact ih hs

theorem line_eq_nil_iff (h : Partition text segments) {s : Segment} (hs : s ∈ segments) :
    s.line = [] ↔ ∃ c ∈ s.text.head?, isLineBreak c := by
  obtain ⟨line, brk⟩ := s
  obtain ⟨hline, hbrk⟩ := h.of_mem hs
  cases line with
  | nil =>
    have hbreak : brk ∈ lineBreaks := hbrk.resolve_right fun hlast => hlast.2 rfl
    obtain ⟨c, cs, rfl⟩ := List.exists_cons_of_ne_nil (ne_nil_of_mem_lineBreaks hbreak)
    exact iff_of_true rfl ⟨c, rfl, isLineBreak_of_mem_lineBreaks hbreak c List.mem_cons_self⟩
  | cons c cs =>
    refine iff_of_false (List.cons_ne_nil c cs) ?_
    rintro ⟨d, hd, hbreak⟩
    obtain rfl : c = d := Option.some.inj hd
    rw [hline c List.mem_cons_self] at hbreak
    cases hbreak

theorem ended_iff (h : Partition text segments) :
    (∃ c ∈ text.getLast?, isLineBreak c) ↔ ∃ s ∈ segments.getLast?, s.brk ≠ [] := by
  induction h with
  | nil => simp
  | last hline hne =>
    refine iff_of_false ?_ (by simp)
    rintro ⟨c, hc, hbreak⟩
    rw [hline c (List.mem_of_getLast? hc)] at hbreak
    cases hbreak
  | @cons line brk rest segments hline hbreak hseam h ih =>
    cases segments with
    | nil =>
      obtain rfl := h.flatMap_text
      have hne := ne_nil_of_mem_lineBreaks hbreak
      refine iff_of_true ⟨brk.getLast hne, ?_, ?_⟩ ⟨_, rfl, hne⟩
      · simp [List.getLast?_append, List.getLast?_eq_some_getLast hne]
      · exact isLineBreak_of_mem_lineBreaks hbreak _ (List.getLast_mem hne)
    | cons s more =>
      obtain ⟨_, hne, -⟩ := h.pass
      rw [List.getLast?_cons_cons, ← ih, List.getLast?_append_of_ne_nil _ hne]

end Partition

/-- A text has one partition, and splitting finds its lines. A cursor that counts bytes finds them
as well: all its cuts fall between characters, and it comes to the end. -/
theorem splitLines_unique_partition (text : List Char) :
    linesByByte text = some (splitLines text) ∧
    ∃ segments, (∀ other, Partition text other ↔ other = segments) ∧
      segments.map Segment.line = splitLines text ∧
      segments.flatMap Segment.text = text ∧
      (∀ s ∈ segments, s.line = [] ↔ ∃ c ∈ s.text.head?, isLineBreak c) ∧
      ((∃ c ∈ text.getLast?, isLineBreak c) ↔ ∃ s ∈ segments.getLast?, s.brk ≠ []) := by
  obtain ⟨breaks, hlines⟩ := linesOf_splitLines text
  obtain ⟨segments, h, hmap⟩ := hlines.exists_partition
  refine ⟨hmap ▸ h.linesByByte_eq, segments, fun other => ⟨fun hother => hother.unique h, ?_⟩, hmap,
    h.flatMap_text, fun s hs => h.line_eq_nil_iff hs, h.ended_iff⟩
  rintro rfl
  exact h

/-- The pair is one break; a carriage return alone and a line separator enclose an empty line. -/
example : splitLines "é\r\n\r\u2028b".toList = ["é".toList, [], [], "b".toList] := by decide

end CursorState.Text
