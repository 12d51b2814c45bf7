import Mathlib.Data.List.Forall2
import CursorState.Proofs.StateTable.Append
import CursorState.Proofs.StateTable.LineGrammar
import CursorState.Proofs.Text.Decimal
import CursorState.StateTable.Dump

/-! What a dump says, told by its lines alone: the headers name the states, and an item belongs to
the nearest header before it. The table that is read from a dump says the same. -/
namespace CursorState
open Text

def IsHeader (line : List Char) : Prop := ∃ digits, HeaderLine line digits

def IsItem (line : List Char) : Prop := ∃ inner digits, ItemLine line inner digits

def NamesState (id : StateId) (line : List Char) : Prop :=
  ∃ digits, HeaderLine line digits ∧ Denotes digits id.toNat

def HoldsItem (item : StateItem) (line : List Char) : Prop :=
  ∃ inner digits, ItemLine line inner digits ∧ item.key = String.ofList (normalizeKey inner) ∧
    Denotes digits item.value.toNat

/-- Line `i`, counted from 0, is there and satisfies `Q`. -/
def LineAt (Q : List Char → Prop) (lines : List (List Char)) (i : Nat) : Prop :=
  ∃ line, lines[i]? = some line ∧ Q line

/-- The nearest header before line `i` names `id`. -/
def Under (lines : List (List Char)) (id : StateId) (i : Nat) : Prop :=
  ∃ j < i, LineAt (NamesState id) lines j ∧ ∀ k, j < k → k < i → ¬ LineAt IsHeader lines k

/-- Line `i` is an item, and the nearest header before it names `id`. -/
def BelongsTo (lines : List (List Char)) (id : StateId) (i : Nat) : Prop :=
  LineAt IsItem lines i ∧ Under lines id i

def Opens (lines : List (List Char)) (i : Nat) : Prop :=
  ∃ id, LineAt (NamesState id) lines i ∧ ∀ j < i, ¬ LineAt (NamesState id) lines j

/-- `xs` has one value for each index with `P`, in the order of the indices, and each value has the
relation `R` to its index. -/
def Lists {α : Type} (P : Nat → Prop) (R : α → Nat → Prop) (xs : List α) : Prop :=
  ∃ indices : List Nat, indices.Pairwise (· < ·) ∧ (∀ i, i ∈ indices ↔ P i) ∧
    List.Forall₂ R xs indices

/-- The table of the lines: each header names a state, the states come in the order of their first
headers, and each has the items that stand under its headers. -/
structure TableOf (lines : List (List Char)) (t : StateTable) : Prop where
  headers : ∀ i, LineAt IsHeader lines i → ∃ id, LineAt (NamesState id) lines i
  nodup : t.ids.Nodup
  ids : Lists (Opens lines) (fun id => LineAt (NamesState id) lines) t.ids
  items : ∀ entry ∈ t.entries,
    Lists (BelongsTo lines entry.1) (fun item => LineAt (HoldsItem item) lines) entry.2

theorem NamesState.unique {id id' : StateId} {line : List Char} (h : NamesState id line)
    (h' : NamesState id' line) : id = id' := by
  obtain ⟨digits, hline, -, -, hid⟩ := h
  obtain ⟨digits', hline', -, -, hid'⟩ := h'
  have hdigits : digits = digits' := by
    rw [← DumpLine.header?_eq_some_iff] at hline hline'
    exact Option.some.inj (hline.symm.trans hline')
  rw [← StateId.toNat_inj, ← hid, ← hid', hdigits]

theorem NamesState.isHeader {id : StateId} {line : List Char} (h : NamesState id line) :
    IsHeader line :=
  h.imp fun _ hd => hd.1

theorem HoldsItem.isItem {item : StateItem} {line : List Char} (h : HoldsItem item line) :
    IsItem line :=
  h.imp fun _ => Exists.imp fun _ hd => hd.1

theorem IsHeader.not_isItem {line : List Char} (h : IsHeader line) : ¬ IsItem line := by
  obtain ⟨digits, hd⟩ := h
  rintro ⟨inner, digits', hi⟩
  exact DumpLine.not_itemLine_of_headerLine hd hi

theorem DumpReading.readLines_append (r : DumpReading) (n : Nat) (xs ys : List (List Char)) :
    r.readLines n (xs ++ ys) =
      (r.readLines n xs).bind fun r' => r'.readLines (n + xs.length) ys := by
  induction xs generalizing r n with
  | nil => rfl
  | cons x xs ih =>
    rw [List.cons_append, readLines, readLines]
    cases r.readLine n x with
    | error e => rfl
    | ok r₁ =>
      simp only
      rw [ih, List.length_cons, Nat.add_right_comm, Nat.add_assoc]

/-- All that reading a line can do, unless it is refused. -/
theorem readLine_cases {r r' : DumpReading} {n : Nat} {line : List Char}
    (h : r.readLine n line = .ok r') :
    (∃ id, NamesState id line ∧ r' = ⟨r.table.append id [], some id⟩) ∨
    (∃ item id, HoldsItem item line ∧ r.current = some id ∧
      r' = ⟨r.table.append id [item], some id⟩) ∨
    (¬ IsHeader line ∧ (IsItem line → r.current = none) ∧ r' = r) := by
  unfold DumpReading.readLine at h
  split at h
  · next digits hline =>
    have hh := DumpLine.ofChars_eq_header_iff.mp hline
    split at h
    · next n hn =>
      obtain ⟨hden, hlt⟩ := readBelow_eq_some_iff.mp hn
      refine .inl ⟨.ofNat n, ⟨digits, hh, ?_⟩, (Except.ok.inj h).symm⟩
      rwa [StateId.toNat_ofNat hlt]
    · cases h
  · next inner digits id hline hcurrent =>
    have hi := DumpLine.ofChars_eq_item_iff.mp hline
    split at h
    · next n hn =>
      obtain ⟨hden, hlt⟩ := readBelow_eq_some_iff.mp hn
      refine .inr (.inl ⟨_, id, ⟨inner, digits, hi, rfl, ?_⟩, hcurrent, (Except.ok.inj h).symm⟩)
      rwa [UInt64.toNat_ofNat_of_lt' hlt]
    · cases h
  · next inner digits hline hcurrent =>
    have hi := DumpLine.ofChars_eq_item_iff.mp hline
    exact .inr (.inr ⟨fun hh => hh.not_isItem ⟨_, _, hi⟩, fun _ => hcurrent,
      (Except.ok.inj h).symm⟩)
  · next hline =>
    refine .inr (.inr ⟨?_, ?_, (Except.ok.inj h).symm⟩)
    · rintro ⟨digits, hh⟩
      rw [DumpLine.ofChars_eq_header_iff.mpr hh] at hline
      cases hline
    · rintro ⟨inner, digits, hi⟩
      rw [DumpLine.ofChars_eq_item_iff.mpr hi] at hline
      cases hline

theorem readLine_of_namesState {id : StateId} {line : List Char} (h : NamesState id line)
    (r : DumpReading) (n : Nat) : r.readLine n line = .ok ⟨r.table.append id [], some id⟩ := by
  obtain ⟨digits, hline, hdigits⟩ := h
  have hnumber := readBelow_eq_some_iff.mpr ⟨hdigits, id.toNat_lt⟩
  simp only [DumpReading.readLine, DumpLine.ofChars_eq_header_iff.mpr hline, hnumber,
    StateId.ofNat_toNat]

theorem readLine_of_holdsItem {item : StateItem} {line : List Char} (h : HoldsItem item line)
    (t : StateTable) (id : StateId) (n : Nat) :
    DumpReading.readLine ⟨t, some id⟩ n line = .ok ⟨t.append id [item], some id⟩ := by
  obtain ⟨key, value⟩ := item
  obtain ⟨inner, digits, hline, rfl, hdigits⟩ := h
  have hnumber : readBelow UInt64.size digits = some value.toNat :=
    readBelow_eq_some_iff.mpr ⟨hdigits, value.toNat_lt⟩
  simp only [DumpReading.readLine, DumpLine.ofChars_eq_item_iff.mpr hline, hnumber,
    UInt64.ofNat_toNat]

theorem readLine_of_skipped {r : DumpReading} {line : List Char} (hheader : ¬ IsHeader line)
    (hitem : IsItem line → r.current = none) (n : Nat) : r.readLine n line = .ok r := by
  unfold DumpReading.readLine
  split
  · next hline => exact absurd ⟨_, DumpLine.ofChars_eq_header_iff.mp hline⟩ hheader
  · next hline hcurrent =>
    rw [hitem ⟨_, _, DumpLine.ofChars_eq_item_iff.mp hline⟩] at hcurrent
    cases hcurrent
  · rfl
  · rfl

end CursorState
