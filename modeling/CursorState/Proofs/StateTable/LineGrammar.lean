import CursorState.Proofs.Text.Decimal
import CursorState.Proofs.Text.Trim
import CursorState.StateTable.DumpLine

/-! The grammar of dump lines: what a header and an item look like, as relations. The two patterns
accept exactly these lines. -/
namespace CursorState
open Text

def Digits (cs : List Char) : Prop := cs ≠ [] ∧ ∀ c ∈ cs, isDecimalDigit c

inductive Numbered : List Char → List Char → Prop
  | intro {lead digits trail : List Char} (hlead : Blanks lead) (hdigits : Digits digits)
      (htrail : Blanks trail) : Numbered (lead ++ digits ++ trail) digits

/-- `HeaderLine line digits`: the line is `State` and a number, with a gap between them. -/
inductive HeaderLine : List Char → List Char → Prop
  | intro {lead gap digits trail : List Char} (hlead : Blanks lead) (hgap : Blanks gap)
      (hne : gap ≠ []) (hdigits : Digits digits) (htrail : Blanks trail) :
      HeaderLine (lead ++ ['S', 't', 'a', 't', 'e'] ++ gap ++ digits ++ trail) digits

/-- `ItemLine line inner digits`: the line is `inner` in brackets, a colon and a number. -/
inductive ItemLine : List Char → List Char → List Char → Prop
  | intro {lead inner before gap digits trail : List Char} (hlead : Blanks lead)
      (hbefore : Blanks before) (hgap : Blanks gap) (hdigits : Digits digits)
      (htrail : Blanks trail) :
      ItemLine (lead ++ ['['] ++ inner ++ [']'] ++ before ++ [':'] ++ gap ++ digits ++ trail)
        inner digits

def blankPoints : List Nat :=
  [0x9, 0xA, 0xB, 0xC, 0xD, 0x20, 0x85, 0xA0, 0x1680, 0x2000, 0x2001, 0x2002, 0x2003, 0x2004,
   0x2005, 0x2006, 0x2007, 0x2008, 0x2009, 0x200A, 0x2028, 0x2029, 0x202F, 0x205F, 0x3000]

theorem mem_blankPoints {c : Char} (h : isBlank c) : c.toNat ∈ blankPoints := by
  simp only [isBlank, Bool.or_eq_true, Bool.and_eq_true, decide_eq_true_eq, beq_iff_eq] at h
  simp only [blankPoints, List.mem_cons, List.not_mem_nil, or_false]
  omega

theorem not_isDecimalDigit_of_isBlank {c : Char} (h : isBlank c) : isDecimalDigit c = false := by
  have hall : ∀ n ∈ blankPoints,
      (zeroDigits.any fun first => first ≤ n && n < first + 10) = false := by decide
  exact hall _ (mem_blankPoints h)

theorem not_isBlank_of_isDecimalDigit {c : Char} (h : isDecimalDigit c) : isBlank c = false := by
  rw [Bool.eq_false_iff]
  intro hb
  rw [not_isDecimalDigit_of_isBlank hb] at h
  cases h

theorem Digits.notMem {cs : List Char} (h : Digits cs) {c : Char} (hc : isDecimalDigit c = false) :
    c ∉ cs := fun hm => by
  rw [h.2 c hm] at hc
  cases hc

theorem Digits.head?_append {digits : List Char} (h : Digits digits) (cs : List Char) :
    ∀ c ∈ (digits ++ cs).head?, isBlank c = false := by
  obtain ⟨d, ds, rfl⟩ := List.exists_cons_of_ne_nil h.1
  exact forall_mem_head?_cons (not_isBlank_of_isDecimalDigit (h.2 d List.mem_cons_self)) _

theorem Digits.dropBlank_append {digits : List Char} (h : Digits digits) (cs : List Char) :
    dropBlank (digits ++ cs) = digits ++ cs :=
  dropBlank_eq_self (h.head?_append cs)

theorem Blanks.head?_not_digit {cs : List Char} (h : Blanks cs) :
    ∀ c ∈ cs.head?, isDecimalDigit c = false :=
  fun c hc => not_isDecimalDigit_of_isBlank (h c (List.mem_of_mem_head? hc))

theorem Digits.span_append {digits trail : List Char} (h : Digits digits) (ht : Blanks trail) :
    (digits ++ trail).span isDecimalDigit = (digits, trail) :=
  span_run_append h.2 ht.head?_not_digit

theorem bracket_notMem_tail {before number digits : List Char} (hbefore : Blanks before)
    (hnumber : Numbered number digits) : ']' ∉ before ++ ':' :: number := by
  obtain ⟨hlead, hdigits, htrail⟩ := hnumber
  simp only [List.mem_append, List.mem_cons, not_or]
  exact ⟨hbefore.notMem (by decide), by decide,
    ⟨hlead.notMem (by decide), hdigits.notMem (by decide)⟩, htrail.notMem (by decide)⟩

namespace DumpLine

theorem number?_eq_some_iff {cs digits : List Char} :
    number? cs = some digits ↔ Numbered cs digits := by
  constructor
  · intro h
    obtain ⟨lead, hlead, hcs⟩ := exists_blanks cs
    simp only [number?, List.span_eq_takeWhile_dropWhile, Option.ite_none_right_eq_some,
      Option.some.injEq] at h
    obtain ⟨⟨hne, htrail⟩, rfl⟩ := h
    have hsplit := List.takeWhile_append_dropWhile (p := isDecimalDigit) (l := dropBlank cs)
    have hnum := Numbered.intro hlead ⟨hne, fun _ hc => List.mem_takeWhile_imp hc⟩
      (List.all_eq_true.mp htrail)
    rwa [List.append_assoc, hsplit, ← hcs] at hnum
  · rintro ⟨hlead, hdigits, htrail⟩
    rw [number?, List.append_assoc, dropBlank_append_of_blanks hlead, hdigits.dropBlank_append,
      hdigits.span_append htrail]
    exact if_pos ⟨hdigits.1, List.all_eq_true.mpr htrail⟩

theorem header?_eq_some_iff {line digits : List Char} :
    header? line = some digits ↔ HeaderLine line digits := by
  constructor
  · intro h
    obtain ⟨lead, hlead, hline⟩ := exists_blanks line
    unfold header? at h
    split at h
    · next c rest hdrop =>
      rw [Option.ite_none_right_eq_some] at h
      obtain ⟨hc, hnum⟩ := h
      obtain ⟨hgap, hdigits, htrail⟩ := number?_eq_some_iff.mp hnum
      rw [hline, hdrop]
      have hgap' : Blanks (c :: _) := List.forall_mem_cons.mpr ⟨hc, hgap⟩
      simpa using HeaderLine.intro hlead hgap' (List.cons_ne_nil _ _) hdigits htrail
    · cases h
  · rintro ⟨hlead, hgap, hne, hdigits, htrail⟩
    obtain ⟨c, gap, rfl⟩ := List.exists_cons_of_ne_nil hne
    obtain ⟨hc, hgap⟩ := List.forall_mem_cons.mp hgap
    have hnum := number?_eq_some_iff.mpr (Numbered.intro hgap hdigits htrail)
    simp only [List.append_assoc, List.cons_append, List.nil_append] at hnum ⊢
    rw [header?, dropBlank_append_of_blanks hlead, dropBlank_cons_of_not_blank (by decide)]
    simpa [hc] using hnum

theorem splitAtLastBracket_eq_some_iff {cs inner tail : List Char} :
    splitAtLastBracket cs = some (inner, tail) ↔ cs = inner ++ ']' :: tail ∧ ']' ∉ tail := by
  rw [splitAtLastBracket, List.span_eq_takeWhile_dropWhile]
  constructor
  · intro h
    have hsplit := List.takeWhile_append_dropWhile (p := (· ≠ ']')) (l := cs.reverse)
    have hafter : ']' ∉ cs.reverse.takeWhile (· ≠ ']') := fun hc => by
      simpa using List.mem_takeWhile_imp hc
    have hstop := List.head?_dropWhile_not (· ≠ ']') cs.reverse
    split at h
    · next after c before hspan =>
      obtain ⟨rfl, hdrop⟩ := Prod.mk.inj hspan
      obtain ⟨rfl, rfl⟩ := Prod.mk.inj (Option.some.inj h)
      rw [hdrop] at hsplit hstop
      have hc : c = ']' := by simpa using hstop
      subst hc
      refine ⟨?_, by simpa using hafter⟩
      generalize cs.reverse.takeWhile (· ≠ ']') = after at hsplit
      rw [← List.reverse_inj, ← hsplit]
      simp
    · cases h
  · rintro ⟨rfl, htail⟩
    have hkeep : ∀ c ∈ tail.reverse, decide (c ≠ ']') = true := fun c hc => by
      simpa using ne_of_mem_of_not_mem (List.mem_reverse.mp hc) htail
    have hrev : (inner ++ ']' :: tail).reverse = tail.reverse ++ (']' :: inner.reverse) := by simp
    rw [hrev, List.takeWhile_append_of_pos hkeep, List.dropWhile_append_of_pos hkeep]
    simp

theorem item?_eq_some_iff {line inner digits : List Char} :
    item? line = some (inner, digits) ↔ ItemLine line inner digits := by
  constructor
  · intro h
    obtain ⟨lead, hlead, hline⟩ := exists_blanks line
    unfold item? at h
    split at h
    · next rest hdrop =>
      simp only [Option.bind_eq_bind, Option.bind_eq_some_iff, Prod.exists] at h
      obtain ⟨inner', tail, hsplit, h⟩ := h
      obtain ⟨rfl, -⟩ := splitAtLastBracket_eq_some_iff.mp hsplit
      obtain ⟨before, hbefore, htail⟩ := exists_blanks tail
      split at h
      · next after hcolon =>
        simp only [Option.bind_eq_some_iff, Option.pure_def, Option.some.injEq,
          Prod.mk.injEq] at h
        obtain ⟨digits', hnum, rfl, rfl⟩ := h
        obtain ⟨hgap, hdigits, htrail⟩ := number?_eq_some_iff.mp hnum
        rw [hline, hdrop, htail, hcolon]
        simpa using @ItemLine.intro _ inner' _ _ _ _ hlead hbefore hgap hdigits htrail
      · cases h
    · cases h
  · rintro @⟨lead, _, before, gap, _, trail, hlead, hbefore, hgap, hdigits, htrail⟩
    have hnumber := Numbered.intro hgap hdigits htrail
    have hsplit := splitAtLastBracket_eq_some_iff.mpr
      ⟨(rfl : inner ++ ']' :: (before ++ ':' :: (gap ++ digits ++ trail)) = _),
        bracket_notMem_tail hbefore hnumber⟩
    have hnum := number?_eq_some_iff.mpr hnumber
    simp only [List.append_assoc, List.cons_append, List.nil_append] at hsplit hnum ⊢
    rw [item?, dropBlank_append_of_blanks hlead, dropBlank_cons_of_not_blank (by decide)]
    simp only [hsplit, Option.bind_eq_bind, Option.bind_some]
    rw [dropBlank_append_of_blanks hbefore, dropBlank_cons_of_not_blank (by decide)]
    simp only [hnum, Option.bind_some, Option.pure_def]

theorem not_itemLine_of_headerLine {line digits inner digits' : List Char}
    (h : HeaderLine line digits) : ¬ ItemLine line inner digits' := by
  intro hi
  have hd := header?_eq_some_iff.mpr h
  obtain ⟨hlead, hbefore, hgap, hdigits, htrail⟩ := hi
  simp only [header?, List.append_assoc, List.cons_append, List.nil_append,
    dropBlank_append_of_blanks hlead] at hd
  rw [dropBlank_cons_of_not_blank (by decide)] at hd
  simp at hd

theorem ofChars_eq_header_iff {line digits : List Char} :
    ofChars line = .header digits ↔ HeaderLine line digits := by
  rw [← header?_eq_some_iff, ofChars]
  cases header? line with
  | some d => simp
  | none => cases item? line <;> simp

theorem ofChars_eq_item_iff {line inner digits : List Char} :
    ofChars line = .item inner digits ↔ ItemLine line inner digits := by
  rw [ofChars]
  cases hh : header? line with
  | some d => simpa using not_itemLine_of_headerLine (header?_eq_some_iff.mp hh)
  | none =>
    rw [← item?_eq_some_iff]
    cases item? line <;> simp [Prod.ext_iff]

end DumpLine
end CursorState
