import Mathlib.Data.List.Basic
import CursorState.Text.Lines

/-! Texts as lines and the breaks that end them. Splitting a text finds its lines, whichever of the
eleven breaks they end in. -/
namespace CursorState.Text

def lineBreaks : List (List Char) :=
  [['\n'], ['\r', '\n'], ['\r'], ['\x0b'], ['\x0c'], ['\x1c'], ['\x1d'], ['\x1e'], ['\u0085'],
   ['\u2028'], ['\u2029']]

def Unbroken (line : List Char) : Prop := ∀ c ∈ line, isLineBreak c = false

instance (line : List Char) : Decidable (Unbroken line) :=
  List.decidableBAll (fun c => isLineBreak c = false) line

/-- `Terminated lines breaks text`: the text is the lines, each with its break behind it. The break
of the last line may be missing. -/
inductive Terminated : List (List Char) → List (List Char) → List Char → Prop
  | nil : Terminated [] [] []
  | last {line : List Char} (hline : Unbroken line) : Terminated [line] [[]] line
  | cons {line brk text : List Char} {lines breaks : List (List Char)} (hline : Unbroken line)
      (hbreak : brk ∈ lineBreaks) (h : Terminated lines breaks text) :
      Terminated (line :: lines) (brk :: breaks) (line ++ brk ++ text)

/-- A carriage return ends a line and a line feed the empty line after it, so that the two look like
one break. -/
def Fuses (lines breaks : List (List Char)) : Prop :=
  ∃ i, breaks[i]? = some ['\r'] ∧ lines[i + 1]? = some [] ∧ breaks[i + 1]? = some ['\n']

/-- The lines of a text and their breaks: a carriage return takes a line feed after it along, and
after the last break there is no line unless some character follows. -/
structure LinesOf (text : List Char) (lines breaks : List (List Char)) : Prop where
  terminated : Terminated lines breaks text
  apart : ¬ Fuses lines breaks
  last : ([], []) ∉ lines.zip breaks

def endLines (lines : List (List Char)) : List Char :=
  lines.flatMap (· ++ ['\n'])

/-! Splitting one line off -/

theorem splitLines_cons {c : Char} (h : c ≠ '\r') (cs : List Char) :
    splitLines (c :: cs) =
      if isLineBreak c then [] :: splitLines cs else consFirst c (splitLines cs) := by
  rw [splitLines.eq_def]
  split
  · next heq => cases heq
  · next heq => exact absurd (List.cons.inj heq).1 h
  · next heq =>
    obtain ⟨rfl, rfl⟩ := List.cons.inj heq
    rfl

theorem splitLines_carriageReturn {rest : List Char} (h : rest.head? ≠ some '\n') :
    splitLines ('\r' :: rest) = [] :: splitLines rest := by
  rw [splitLines.eq_def]
  split
  · next heq => cases heq
  · next heq =>
    obtain ⟨-, rfl⟩ := List.cons.inj heq
    exact absurd rfl h
  · next heq =>
    obtain ⟨rfl, rfl⟩ := List.cons.inj heq
    rfl

theorem splitLines_break {brk rest : List Char} (hbreak : brk ∈ lineBreaks)
    (hseam : brk = ['\r'] → rest.head? ≠ some '\n') :
    splitLines (brk ++ rest) = [] :: splitLines rest := by
  simp only [lineBreaks, List.mem_cons, List.not_mem_nil, or_false] at hbreak
  rcases hbreak with rfl | rfl | rfl | hbreak
  · exact splitLines_cons (by decide) rest
  · rfl
  · exact splitLines_carriageReturn (hseam rfl)
  · rcases hbreak with rfl | rfl | rfl | rfl | rfl | rfl | rfl | rfl <;>
      exact splitLines_cons (by decide) rest

theorem splitLines_append_of_unbroken {line text first : List Char} {lines : List (List Char)}
    (hline : Unbroken line) (h : splitLines text = first :: lines) :
    splitLines (line ++ text) = (line ++ first) :: lines := by
  induction line with
  | nil => exact h
  | cons c cs ih =>
    obtain ⟨hc, hcs⟩ := List.forall_mem_cons.mp hline
    have hcr : c ≠ '\r' := by
      rintro rfl
      exact absurd hc (by decide)
    rw [List.cons_append, splitLines_cons hcr, ih hcs, hc]
    rfl

theorem splitLines_line {line brk rest : List Char} (hline : Unbroken line)
    (hbreak : brk ∈ lineBreaks) (hseam : brk = ['\r'] → rest.head? ≠ some '\n') :
    splitLines (line ++ brk ++ rest) = line :: splitLines rest := by
  rw [List.append_assoc, splitLines_append_of_unbroken hline (splitLines_break hbreak hseam),
    List.append_nil]

theorem splitLines_of_unbroken {line : List Char} (hline : Unbroken line) (hne : line ≠ []) :
    splitLines line = [line] := by
  obtain ⟨cs, c, rfl⟩ := (List.eq_nil_or_concat line).resolve_left hne
  rw [List.concat_eq_append] at hline ⊢
  obtain ⟨hcs, hc⟩ := List.forall_mem_append.mp hline
  have hc : isLineBreak c = false := hc c (List.mem_singleton_self c)
  have hcr : c ≠ '\r' := by
    rintro rfl
    exact absurd hc (by decide)
  refine splitLines_append_of_unbroken hcs ?_
  rw [splitLines_cons hcr, hc]
  rfl

theorem splitLines_endLines {lines : List (List Char)} (h : ∀ line ∈ lines, Unbroken line) :
    splitLines (endLines lines) = lines := by
  induction lines with
  | nil => rfl
  | cons line lines ih =>
    obtain ⟨hline, hlines⟩ := List.forall_mem_cons.mp h
    have hsplit :
        splitLines (line ++ ['\n'] ++ endLines lines) = line :: splitLines (endLines lines) :=
      splitLines_line hline (by decide) fun hcr => absurd hcr (by decide)
    rw [ih hlines] at hsplit
    exact hsplit

/-! The lines of a text -/

theorem mem_lineBreaks_of_isLineBreak {c : Char} (h : isLineBreak c) : [c] ∈ lineBreaks := by
  simpa [isLineBreak, lineBreaks, or_assoc] using h

theorem mem_lineBreaks_iff {brk : List Char} :
    brk ∈ lineBreaks ↔ brk = ['\r', '\n'] ∨ ∃ c, isLineBreak c ∧ brk = [c] := by
  constructor
  · intro h
    simp only [lineBreaks, List.mem_cons, List.not_mem_nil, or_false] at h
    rcases h with rfl | rfl | rfl | rfl | rfl | rfl | rfl | rfl | rfl | rfl | rfl
    · exact .inr ⟨'\n', by decide, rfl⟩
    · exact .inl rfl
    all_goals exact .inr ⟨_, by decide, rfl⟩
  · rintro (rfl | ⟨c, hc, rfl⟩)
    · decide
    · exact mem_lineBreaks_of_isLineBreak hc

theorem fuses_cons {line brk : List Char} {lines breaks : List (List Char)} :
    Fuses (line :: lines) (brk :: breaks) ↔
      brk = ['\r'] ∧ lines.head? = some [] ∧ breaks.head? = some ['\n'] ∨ Fuses lines breaks := by
  constructor
  · rintro ⟨i, hi⟩
    cases i with
    | zero => exact .inl (by simpa [List.head?_eq_getElem?] using hi)
    | succ i => exact .inr ⟨i, hi⟩
  · rintro (hfirst | ⟨i, hi⟩)
    · exact ⟨0, by simpa [List.head?_eq_getElem?] using hfirst⟩
    · exact ⟨i + 1, hi⟩

namespace Terminated

variable {text : List Char} {lines breaks : List (List Char)}

theorem head?_eq_lineFeed_iff (h : Terminated lines breaks text) :
    text.head? = some '\n' ↔ lines.head? = some [] ∧ breaks.head? = some ['\n'] := by
  have hnot : ¬ isLineBreak '\n' = false := by decide
  cases h with
  | nil => simp
  | last hline =>
    cases text with
    | nil => simp
    | cons c cs =>
      have hc : c ≠ '\n' := fun hc => hnot (hc ▸ hline c List.mem_cons_self)
      simp [hc]
  | @cons line brk text lines breaks hline hbreak h =>
    cases line with
    | nil =>
      simp only [lineBreaks, List.mem_cons, List.not_mem_nil, or_false] at hbreak
      rcases hbreak with rfl | rfl | rfl | rfl | rfl | rfl | rfl | rfl | rfl | rfl | rfl <;> simp
    | cons c cs =>
      have hc : c ≠ '\n' := fun hc => hnot (hc ▸ hline c List.mem_cons_self)
      simp [hc]

/-- Where no two breaks fuse, the lines are found again, but for an empty one that no break ends. -/
theorem splitLines_eq (h : Terminated lines breaks text) (hapart : ¬ Fuses lines breaks) :
    splitLines text = lines ∨ splitLines text ++ [[]] = lines := by
  induction h with
  | nil => exact .inl rfl
  | @last line hline =>
    by_cases hne : line = []
    · subst hne
      exact .inr rfl
    · exact .inl (splitLines_of_unbroken hline hne)
  | @cons line brk text lines breaks hline hbreak h ih =>
    obtain ⟨hfirst, hrest⟩ := not_or.mp (mt fuses_cons.mpr hapart)
    rw [splitLines_line hline hbreak fun hcr hhead =>
      hfirst ⟨hcr, h.head?_eq_lineFeed_iff.mp hhead⟩]
    exact (ih hrest).imp (congrArg (line :: ·)) (congrArg (line :: ·))

/-- Fused breaks cost an empty line, and no other line. -/
theorem filter_splitLines (h : Terminated lines breaks text) :
    (splitLines text).filter (· ≠ []) = lines.filter (· ≠ []) := by
  induction h with
  | nil => rfl
  | @last line hline =>
    by_cases hne : line = []
    · subst hne
      rfl
    · rw [splitLines_of_unbroken hline hne]
  | @cons line brk text lines breaks hline hbreak h ih =>
    by_cases hseam : brk = ['\r'] → text.head? ≠ some '\n'
    · rw [splitLines_line hline hbreak hseam, List.filter_cons, List.filter_cons, ih]
    · -- the two breaks are read as one, which costs the empty line between them
      rw [Classical.not_imp, not_not] at hseam
      obtain ⟨rfl, hhead⟩ := hseam
      obtain ⟨rest, rfl⟩ := List.head?_eq_some_iff.mp hhead
      have hsplit : splitLines (line ++ ['\r', '\n'] ++ rest) = line :: splitLines rest :=
        splitLines_line hline (by decide) fun hcr => absurd hcr (by decide)
      have hfused : splitLines (line ++ ['\r'] ++ '\n' :: rest) = line :: splitLines rest := by
        simpa using hsplit
      have hempty : splitLines ('\n' :: rest) = [] :: splitLines rest :=
        splitLines_cons (by decide) rest
      rw [hempty, List.filter_cons] at ih
      rw [hfused, List.filter_cons, List.filter_cons, ← ih]
      rfl

end Terminated

theorem LinesOf.cons_unbroken {text : List Char} {lines breaks : List (List Char)} {c : Char}
    (hc : isLineBreak c = false) (h : LinesOf text lines breaks) :
    ∃ breaks', LinesOf (c :: text) (consFirst c lines) breaks' := by
  obtain ⟨h, hapart, hlast⟩ := h
  cases h with
  | nil =>
    exact ⟨[[]], .last (List.forall_mem_singleton.mpr hc), by simp [Fuses], by simp [consFirst]⟩
  | last hline =>
    exact ⟨[[]], .last (List.forall_mem_cons.mpr ⟨hc, hline⟩), by simp [Fuses], by simp [consFirst]⟩
  | @cons line brk _ _ breaks hline hbreak h =>
    refine ⟨brk :: breaks, .cons (List.forall_mem_cons.mpr ⟨hc, hline⟩) hbreak h, ?_, ?_⟩
    · rwa [consFirst, fuses_cons] at *
    · simp_all [consFirst]

theorem linesOf_splitLines (text : List Char) :
    ∃ breaks, LinesOf text (splitLines text) breaks := by
  fun_induction splitLines text with
  | case1 => exact ⟨[], .nil, by simp [Fuses], List.not_mem_nil⟩
  | case2 cs ih =>
    obtain ⟨breaks, h, hapart, hlast⟩ := ih
    refine ⟨['\r', '\n'] :: breaks, .cons (List.forall_mem_nil _) (by decide) h, ?_, ?_⟩
    · simpa [fuses_cons] using hapart
    · simpa using hlast
  | case3 c cs hpair hbreak ih =>
    obtain ⟨breaks, h, hapart, hlast⟩ := ih
    refine ⟨[c] :: breaks, .cons (List.forall_mem_nil _) (mem_lineBreaks_of_isLineBreak hbreak) h,
      ?_, ?_⟩
    · rw [fuses_cons, not_or]
      refine ⟨fun ⟨hc, hhead⟩ => ?_, hapart⟩
      obtain ⟨rest, hcs⟩ := List.head?_eq_some_iff.mp (h.head?_eq_lineFeed_iff.mpr hhead)
      exact hpair rest (List.singleton_inj.mp hc) hcs
    · simpa using hlast
  | case4 c cs hpair hbreak ih =>
    obtain ⟨breaks, h⟩ := ih
    exact h.cons_unbroken (Bool.eq_false_iff.mpr hbreak)

theorem Terminated.append_lineFeed {lines breaks lines' breaks' : List (List Char)}
    {text text' : List Char} (h : Terminated lines breaks text)
    (h' : Terminated lines' breaks' text') :
    ∃ gap breaks'', (∀ line ∈ gap, line = []) ∧
      Terminated (lines ++ gap ++ lines') breaks'' (text ++ '\n' :: text') := by
  induction h with
  | nil =>
    have hgap : Terminated ([] :: lines') (['\n'] :: breaks') ([] ++ ['\n'] ++ text') :=
      .cons (by decide) (by decide) h'
    exact ⟨[[]], _, List.forall_mem_singleton.mpr rfl, hgap⟩
  | @last line hline =>
    have hended : Terminated (line :: lines') (['\n'] :: breaks') (line ++ ['\n'] ++ text') :=
      .cons hline (by decide) h'
    exact ⟨[], ['\n'] :: breaks', List.forall_mem_nil _, by simpa using hended⟩
  | @cons line brk text lines breaks hline hbreak h ih =>
    obtain ⟨gap, breaks'', hgap, hrest⟩ := ih
    refine ⟨gap, brk :: breaks'', hgap, ?_⟩
    simpa using Terminated.cons hline hbreak hrest

theorem filter_splitLines_append_lineFeed (text text' : List Char) :
    (splitLines (text ++ '\n' :: text')).filter (· ≠ []) =
      (splitLines text ++ splitLines text').filter (· ≠ []) := by
  obtain ⟨breaks, h, -, -⟩ := linesOf_splitLines text
  obtain ⟨breaks', h', -, -⟩ := linesOf_splitLines text'
  obtain ⟨gap, breaks'', hgap, hall⟩ := h.append_lineFeed h'
  have hempty : gap.filter (· ≠ []) = [] := by
    rw [List.filter_eq_nil_iff]
    exact fun line hline => by simp [hgap line hline]
  rw [hall.filter_splitLines, List.filter_append, List.filter_append, List.filter_append, hempty,
    List.append_nil]

theorem consFirst_ne_nil (c : Char) (lines : List (List Char)) : consFirst c lines ≠ [] := by
  cases lines <;> exact List.cons_ne_nil _ _

theorem splitLines_ne_nil {text : List Char} (h : text ≠ []) : splitLines text ≠ [] := by
  fun_cases splitLines text with
  | case1 => exact absurd rfl h
  | case2 => exact List.cons_ne_nil _ _
  | case3 => exact List.cons_ne_nil _ _
  | case4 => exact consFirst_ne_nil _ _

theorem consFirst_append {c : Char} {lines : List (List Char)} (h : lines ≠ [])
    (rest : List (List Char)) : consFirst c (lines ++ rest) = consFirst c lines ++ rest := by
  obtain ⟨line, lines, rfl⟩ := List.exists_cons_of_ne_nil h
  rfl

theorem splitLines_append_of_ended {text : List Char} (hend : ∀ c ∈ text.getLast?, isLineBreak c)
    (more : List Char) : ∃ rest, splitLines (text ++ more) = splitLines text ++ rest := by
  fun_induction splitLines text with
  | case1 => exact ⟨_, rfl⟩
  | case2 cs ih =>
    obtain ⟨rest, h⟩ := ih fun c hc => hend c (List.mem_getLast?_cons (List.mem_getLast?_cons hc))
    exact ⟨rest, congrArg ([] :: ·) h⟩
  | case3 c cs hpair hbreak ih =>
    by_cases hseam : [c] = ['\r'] → (cs ++ more).head? ≠ some '\n'
    · obtain ⟨rest, h⟩ := ih fun c hc => hend c (List.mem_getLast?_cons hc)
      have hsplit := splitLines_break (mem_lineBreaks_of_isLineBreak hbreak) hseam
      exact ⟨rest, hsplit.trans (congrArg ([] :: ·) h)⟩
    · -- the text ends in a carriage return, and the line feed comes from behind
      rw [Classical.not_imp, not_not] at hseam
      obtain ⟨hc, hhead⟩ := hseam
      obtain rfl := List.singleton_inj.mp hc
      cases cs with
      | nil =>
        obtain ⟨rest, rfl⟩ := List.head?_eq_some_iff.mp hhead
        exact ⟨splitLines rest, rfl⟩
      | cons d ds =>
        obtain rfl := Option.some.inj hhead
        exact (hpair ds rfl rfl).elim
  | case4 c cs hpair hbreak ih =>
    have hc : isLineBreak c = false := Bool.eq_false_iff.mpr hbreak
    cases cs with
    | nil => exact absurd (hend c rfl) hbreak
    | cons d ds =>
      obtain ⟨rest, h⟩ := ih fun c hc => hend c (List.mem_getLast?_cons hc)
      have hne := splitLines_ne_nil (List.cons_ne_nil d ds)
      have hcr : c ≠ '\r' := by
        rintro rfl
        exact absurd hc (by decide)
      refine ⟨rest, ?_⟩
      rw [List.cons_append, splitLines_cons hcr, h, hc, ← consFirst_append hne]
      rfl

end CursorState.Text
