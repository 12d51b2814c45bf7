import Mathlib.Data.Set.Subsingleton
import Mathlib.Order.Bounds.Defs
import CursorState.Proofs.StateTable.LineGrammar

/-! Dump lines taken apart into all that they are made of, blanks included. A line can be taken
apart in one way at most, and the two patterns find it. -/
namespace CursorState
open Text

/-- A number and the blanks around it. -/
@[ext]
structure NumberParts where
  lead : List Char
  digits : List Char
  trail : List Char
  blanks_lead : Blanks lead
  digits_digits : Digits digits
  blanks_trail : Blanks trail

/-- `State` and a number, with a gap between them. -/
@[ext]
structure HeaderParts where
  lead : List Char
  number : NumberParts
  blanks_lead : Blanks lead
  gap_ne_nil : number.lead ≠ []

/-- Any text in brackets, a colon and a number. -/
@[ext]
structure ItemParts where
  lead : List Char
  inner : List Char
  before : List Char
  number : NumberParts
  blanks_lead : Blanks lead
  blanks_before : Blanks before

inductive LineParts where
  | header (parts : HeaderParts)
  | item (parts : ItemParts)

namespace NumberParts

def text (p : NumberParts) : List Char := p.lead ++ p.digits ++ p.trail

theorem numbered_text (p : NumberParts) : Numbered p.text p.digits :=
  .intro p.blanks_lead p.digits_digits p.blanks_trail

theorem text_injective : Function.Injective text := by
  intro p q h
  simp only [text, List.append_assoc] at h
  obtain ⟨hlead, h⟩ := run_append_inj p.blanks_lead q.blanks_lead
    (p.digits_digits.head?_append p.trail) (q.digits_digits.head?_append q.trail) h
  obtain ⟨hdigits, htrail⟩ := run_append_inj p.digits_digits.2 q.digits_digits.2
    p.blanks_trail.head?_not_digit q.blanks_trail.head?_not_digit h
  exact NumberParts.ext hlead hdigits htrail

end NumberParts

namespace HeaderParts

def text (p : HeaderParts) : List Char :=
  p.lead ++ (['S', 't', 'a', 't', 'e'] ++ p.number.text)

theorem text_injective : Function.Injective text := by
  intro p q h
  obtain ⟨hlead, h⟩ := run_append_inj p.blanks_lead q.blanks_lead
    (forall_mem_head?_cons (by decide) _) (forall_mem_head?_cons (by decide) _) h
  have hnumber : p.number.text = q.number.text := by simpa using h
  exact HeaderParts.ext hlead (NumberParts.text_injective hnumber)

end HeaderParts

theorem headerLine_iff_exists_parts {line digits : List Char} :
    HeaderLine line digits ↔ ∃ p : HeaderParts, p.text = line ∧ p.number.digits = digits := by
  constructor
  · rintro @⟨lead, gap, digits, trail, hlead, hgap, hne, hdigits, htrail⟩
    exact ⟨⟨lead, ⟨gap, digits, trail, hgap, hdigits, htrail⟩, hlead, hne⟩,
      by simp [HeaderParts.text, NumberParts.text], rfl⟩
  · rintro ⟨p, rfl, rfl⟩
    have h := HeaderLine.intro p.blanks_lead p.number.blanks_lead p.gap_ne_nil
      p.number.digits_digits p.number.blanks_trail
    simpa [HeaderParts.text, NumberParts.text] using h

namespace ItemParts

def tail (p : ItemParts) : List Char := p.before ++ ':' :: p.number.text

def text (p : ItemParts) : List Char := p.lead ++ '[' :: (p.inner ++ ']' :: p.tail)

def closing (p : ItemParts) : Nat := p.lead.length + 1 + p.inner.length

theorem bracket_notMem (p : ItemParts) : ']' ∉ p.tail :=
  bracket_notMem_tail p.blanks_before p.number.numbered_text

theorem splitAtLastBracket_eq (p : ItemParts) :
    DumpLine.splitAtLastBracket (p.inner ++ ']' :: p.tail) = some (p.inner, p.tail) :=
  DumpLine.splitAtLastBracket_eq_some_iff.mpr ⟨rfl, p.bracket_notMem⟩

theorem tail_eq {p q : ItemParts} (h : p.tail = q.tail) :
    p.before = q.before ∧ p.number = q.number := by
  obtain ⟨hbefore, h⟩ := run_append_inj p.blanks_before q.blanks_before
    (forall_mem_head?_cons (by decide) _) (forall_mem_head?_cons (by decide) _) h
  exact ⟨hbefore, NumberParts.text_injective (List.cons.inj h).2⟩

/-- The text in the brackets may hold brackets of both kinds: the last one of all closes it. -/
theorem text_injective : Function.Injective text := by
  intro p q h
  obtain ⟨hlead, h⟩ := run_append_inj p.blanks_lead q.blanks_lead
    (forall_mem_head?_cons (by decide) _) (forall_mem_head?_cons (by decide) _) h
  have hsplit := congrArg DumpLine.splitAtLastBracket (List.cons.inj h).2
  rw [p.splitAtLastBracket_eq, q.splitAtLastBracket_eq] at hsplit
  obtain ⟨hinner, htail⟩ := Prod.mk.inj (Option.some.inj hsplit)
  obtain ⟨hbefore, hnumber⟩ := tail_eq htail
  exact ItemParts.ext hlead hinner hbefore hnumber

theorem isGreatest_closing (p : ItemParts) : IsGreatest {i | p.text[i]? = some ']'} p.closing := by
  have htext : p.text = (p.lead ++ '[' :: p.inner) ++ ']' :: p.tail := by simp [text]
  have hlength : (p.lead ++ '[' :: p.inner).length = p.closing := by
    rw [closing, List.length_append, List.length_cons, Nat.add_assoc, Nat.add_comm 1]
  constructor
  · rw [Set.mem_ofPred_eq, htext, ← hlength, List.getElem?_append_right (Nat.le_refl _)]
    simp
  · intro i hi
    rw [Set.mem_ofPred_eq, htext] at hi
    by_contra hlt
    rw [List.getElem?_append_right (by omega), hlength] at hi
    obtain ⟨k, hk⟩ : ∃ k, i - p.closing = k + 1 := ⟨i - p.closing - 1, by omega⟩
    rw [hk, List.getElem?_cons_succ] at hi
    exact p.bracket_notMem (List.mem_of_getElem? hi)

end ItemParts

theorem itemLine_iff_exists_parts {line inner digits : List Char} :
    ItemLine line inner digits ↔
      ∃ p : ItemParts, p.text = line ∧ p.inner = inner ∧ p.number.digits = digits := by
  constructor
  · rintro @⟨lead, inner, before, gap, digits, trail, hlead, hbefore, hgap, hdigits, htrail⟩
    exact ⟨⟨lead, inner, before, ⟨gap, digits, trail, hgap, hdigits, htrail⟩, hlead, hbefore⟩,
      by simp [ItemParts.text, ItemParts.tail, NumberParts.text], rfl, rfl⟩
  · rintro ⟨p, rfl, rfl, rfl⟩
    have h := @ItemLine.intro _ p.inner _ _ _ _ p.blanks_lead p.blanks_before
      p.number.blanks_lead p.number.digits_digits p.number.blanks_trail
    simpa [ItemParts.text, ItemParts.tail, NumberParts.text] using h

namespace LineParts

def text : LineParts → List Char
  | header p => p.text
  | item p => p.text

def dumpLine : LineParts → DumpLine
  | header p => .header p.number.digits
  | item p => .item p.inner p.number.digits

theorem ofChars_text (p : LineParts) : DumpLine.ofChars p.text = p.dumpLine := by
  cases p with
  | header p =>
    exact DumpLine.ofChars_eq_header_iff.mpr (headerLine_iff_exists_parts.mpr ⟨p, rfl, rfl⟩)
  | item p =>
    exact DumpLine.ofChars_eq_item_iff.mpr (itemLine_iff_exists_parts.mpr ⟨p, rfl, rfl, rfl⟩)

theorem text_injective : Function.Injective text := by
  intro p q h
  have hline : p.dumpLine = q.dumpLine := by rw [← p.ofChars_text, h, q.ofChars_text]
  cases p with
  | header p =>
    cases q with
    | header q => exact congrArg header (HeaderParts.text_injective h)
    | item q => cases hline
  | item p =>
    cases q with
    | header q => cases hline
    | item q => exact congrArg item (ItemParts.text_injective h)

end LineParts

/-- The two patterns accept what is made of the parts of a header or of an item, and nothing else.
No line is made of such parts in two ways, let alone of those of a header and of an item, and the
bracket that closes an item is the last one of the line. Lines need not be free of breaks for it. -/
theorem DumpLine.patterns_unambiguous (line : List Char) :
    (∀ digits, header? line = some digits ↔
      ∃ p : HeaderParts, p.text = line ∧ p.number.digits = digits) ∧
    (∀ inner digits, item? line = some (inner, digits) ↔
      ∃ p : ItemParts, p.text = line ∧ p.inner = inner ∧ p.number.digits = digits) ∧
    {p : LineParts | p.text = line}.Subsingleton ∧
    (∀ p : LineParts, p.text = line → ofChars line = p.dumpLine) ∧
    (header? line = none ∨ item? line = none) ∧
    ∀ p : ItemParts, IsGreatest {i | p.text[i]? = some ']'} p.closing := by
  refine ⟨fun digits => ?_, fun inner digits => ?_, ?_, ?_, ?_, ?_⟩
  · exact header?_eq_some_iff.trans headerLine_iff_exists_parts
  · exact item?_eq_some_iff.trans itemLine_iff_exists_parts
  · exact fun p hp q hq => LineParts.text_injective (hp.trans hq.symm)
  · rintro p rfl
    exact p.ofChars_text
  · rw [or_iff_not_imp_left]
    intro hheader
    obtain ⟨digits, hdigits⟩ := Option.ne_none_iff_exists'.mp hheader
    refine Option.eq_none_iff_forall_ne_some.mpr fun item hitem => ?_
    exact not_itemLine_of_headerLine (header?_eq_some_iff.mp hdigits) (item?_eq_some_iff.mp hitem)
  · exact ItemParts.isGreatest_closing

/-- Both brackets are followed by a colon and a number. -/
example : DumpLine.item? "[a] : 1] : ٣".toList = some ("a] : 1".toList, ['٣']) := by decide

end CursorState
