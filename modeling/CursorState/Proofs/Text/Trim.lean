import Mathlib.Data.List.TakeWhile
import CursorState.Text.Blank

/-! White space around a text, and the text without it. -/
namespace CursorState
open Text

def Blanks (cs : List Char) : Prop := ∀ c ∈ cs, isBlank c

theorem Blanks.notMem {cs : List Char} (h : Blanks cs) {c : Char} (hc : isBlank c = false) :
    c ∉ cs := fun hm => by
  rw [h c hm] at hc
  cases hc

theorem dropBlank_append_of_blanks {lead : List Char} (h : Blanks lead) (cs : List Char) :
    dropBlank (lead ++ cs) = dropBlank cs :=
  List.dropWhile_append_of_pos h

theorem exists_blanks (cs : List Char) : ∃ lead, Blanks lead ∧ cs = lead ++ dropBlank cs :=
  ⟨cs.takeWhile isBlank, fun _ h => List.mem_takeWhile_imp h,
    List.takeWhile_append_dropWhile.symm⟩

structure Trimmed (cs : List Char) : Prop where
  start : ∀ c ∈ cs.head?, isBlank c = false
  stop : ∀ c ∈ cs.getLast?, isBlank c = false

theorem dropBlank_eq_self {cs : List Char} (h : ∀ c ∈ cs.head?, isBlank c = false) :
    dropBlank cs = cs := by
  cases cs with
  | nil => rfl
  | cons c cs => exact dropBlank_cons_of_not_blank (h c rfl) cs

namespace Trimmed

variable {cs : List Char}

theorem trim_eq (h : Trimmed cs) : trim cs = cs := by
  have hend : dropBlank cs.reverse = cs.reverse := by
    refine dropBlank_eq_self ?_
    rw [List.head?_reverse]
    exact h.stop
  rw [trim, dropBlank_eq_self h.start, dropBlankEnd, hend, List.reverse_reverse]

theorem trim_space_cons (h : Trimmed cs) : trim (' ' :: cs) = cs := by
  have hdrop : trim (' ' :: cs) = trim cs := by
    rw [trim, dropBlank_cons_of_blank (by decide), trim]
  rw [hdrop, h.trim_eq]

theorem trim_append (h : Trimmed cs) (hne : cs ≠ []) {lead trail : List Char} (hlead : Blanks lead)
    (htrail : Blanks trail) : trim (lead ++ cs ++ trail) = cs := by
  have hstart : dropBlank (cs ++ trail) = cs ++ trail := by
    obtain ⟨d, ds, rfl⟩ := List.exists_cons_of_ne_nil hne
    exact dropBlank_eq_self h.start
  have hend : dropBlank cs.reverse = cs.reverse := by
    refine dropBlank_eq_self ?_
    rw [List.head?_reverse]
    exact h.stop
  have hreverse : Blanks trail.reverse := fun c hc => htrail c (List.mem_reverse.mp hc)
  rw [trim, List.append_assoc, dropBlank_append_of_blanks hlead, hstart, dropBlankEnd,
    List.reverse_append, dropBlank_append_of_blanks hreverse, hend, List.reverse_reverse]

end Trimmed

theorem head?_dropBlank (cs : List Char) : ∀ c ∈ (dropBlank cs).head?, isBlank c = false := by
  intro c hc
  have h := List.head?_dropWhile_not isBlank cs
  rw [show cs.dropWhile isBlank = dropBlank cs from rfl, Option.mem_def.mp hc] at h
  simpa using h

theorem trim_of_blanks {cs : List Char} (h : Blanks cs) : trim cs = [] := by
  have hdrop : dropBlank cs = [] := List.dropWhile_eq_nil_iff.mpr h
  rw [trim, hdrop]
  rfl

theorem exists_dropBlank_eq (cs : List Char) :
    ∃ trail, Blanks trail ∧ dropBlank cs = trim cs ++ trail := by
  obtain ⟨trail, htrail, hrest⟩ := exists_blanks (dropBlank cs).reverse
  refine ⟨trail.reverse, fun c hc => htrail c (List.mem_reverse.mp hc), ?_⟩
  rw [trim, dropBlankEnd, ← List.reverse_append, ← hrest, List.reverse_reverse]

theorem exists_trim (cs : List Char) :
    ∃ lead trail, Blanks lead ∧ Blanks trail ∧ cs = lead ++ trim cs ++ trail := by
  obtain ⟨lead, hlead, hcs⟩ := exists_blanks cs
  obtain ⟨trail, htrail, hdrop⟩ := exists_dropBlank_eq cs
  refine ⟨lead, trail, hlead, htrail, ?_⟩
  rw [List.append_assoc, ← hdrop]
  exact hcs

theorem trimmed_trim (cs : List Char) : Trimmed (trim cs) := by
  obtain ⟨trail, -, hdrop⟩ := exists_dropBlank_eq cs
  constructor
  · intro c hc
    obtain ⟨rest, hrest⟩ := List.head?_eq_some_iff.mp hc
    refine head?_dropBlank cs c ?_
    rw [hdrop, hrest]
    rfl
  · rw [trim, dropBlankEnd, List.getLast?_reverse]
    exact head?_dropBlank _

/-- `TrimsTo part core`: the core is the part without the blanks at its two ends. -/
inductive TrimsTo : List Char → List Char → Prop
  | intro {lead core trail : List Char} (hlead : Blanks lead) (hcore : Trimmed core)
      (htrail : Blanks trail) : TrimsTo (lead ++ core ++ trail) core

theorem trimsTo_iff {part core : List Char} : TrimsTo part core ↔ trim part = core := by
  constructor
  · rintro @⟨lead, _, trail, hlead, hcore, htrail⟩
    by_cases hne : core = []
    · subst hne
      refine trim_of_blanks ?_
      rw [List.append_nil]
      exact List.forall_mem_append.mpr ⟨hlead, htrail⟩
    · exact hcore.trim_append hne hlead htrail
  · rintro rfl
    obtain ⟨lead, trail, hlead, htrail, hpart⟩ := exists_trim part
    have h := TrimsTo.intro hlead (trimmed_trim part) htrail
    rwa [← hpart] at h

end CursorState
