import Mathlib.Data.List.Forall2
import CursorState.Proofs.StateTable.SymbolList

/-! Keys of items. What stands in the brackets of an item is told by its parts, without splitting
and trimming; the key lists the symbols among them, and a reader gets them back from it. -/
namespace CursorState
open Text

/-- The parts of a text between its commas. -/
structure CommaParts (text : List Char) (parts : List (List Char)) : Prop where
  ne_nil : parts ≠ []
  comma : ∀ part ∈ parts, ',' ∉ part
  joined : [','].intercalate parts = text

/-- The parts of a text between its commas, each without the blanks at its ends. -/
def TrimmedParts (text : List Char) (parts : List (List Char)) : Prop :=
  ∃ raw, CommaParts text raw ∧ List.Forall₂ TrimsTo raw parts

def IsSymbol (part : List Char) : Prop := part ≠ [] ∧ part ≠ ['T'] ∧ part ≠ ['N', 'T']

instance (part : List Char) : Decidable (IsSymbol part) := instDecidableAnd

/-- The symbols that are listed in a text, in their order and as often as they are there. -/
def ListsSymbols (text : List Char) (names : List (List Char)) : Prop :=
  ∃ parts, TrimmedParts text parts ∧ parts.filter IsSymbol = names

def insideOfKey (key : List Char) : List Char := key.tail.dropLast

section
variable {text part : List Char} {parts names : List (List Char)}

theorem comma_notMem_splitCommas (cs : List Char) : ∀ part ∈ splitCommas cs, ',' ∉ part := by
  fun_induction splitCommas cs with
  | case1 => simp
  | case2 cs ih => exact List.forall_mem_cons.mpr ⟨List.not_mem_nil, ih⟩
  | case3 c cs hc hnil ih => exact List.forall_mem_singleton.mpr (by simpa using Ne.symm hc)
  | case4 c cs hc part parts hsplit ih =>
    rw [hsplit] at ih
    obtain ⟨hpart, hparts⟩ := List.forall_mem_cons.mp ih
    refine List.forall_mem_cons.mpr ⟨?_, hparts⟩
    simp [Ne.symm hc, hpart]

theorem commaParts_iff : CommaParts text parts ↔ splitCommas text = parts := by
  constructor
  · rintro ⟨hne, hcomma, rfl⟩
    rw [splitCommas_eq_splitOn, List.splitOn_intercalate ',' hcomma hne]
  · rintro rfl
    refine ⟨?_, comma_notMem_splitCommas text, ?_⟩
    · rw [splitCommas_eq_splitOn]
      exact List.splitOn_ne_nil ',' text
    · rw [splitCommas_eq_splitOn, List.intercalate_splitOn]

theorem forall₂_trimsTo_iff {raw : List (List Char)} :
    List.Forall₂ TrimsTo raw parts ↔ raw.map trim = parts := by
  have hrel : TrimsTo = fun part core => trim part = core := by
    funext part core
    exact propext trimsTo_iff
  rw [hrel, ← List.forall₂_map_left_iff, List.forall₂_eq_eq_eq]

theorem trimmedParts_iff : TrimmedParts text parts ↔ (splitCommas text).map trim = parts := by
  simp only [TrimmedParts, commaParts_iff, forall₂_trimsTo_iff, exists_eq_left']

theorem isSymbol_iff : IsSymbol part ↔ (!part.isEmpty && !isMarker part) = true := by
  simp [IsSymbol, isMarker]

theorem listsSymbols_iff : ListsSymbols text names ↔ symbols text = names := by
  have hfilter (parts : List (List Char)) :
      parts.filter IsSymbol = parts.filter fun part => !part.isEmpty && !isMarker part :=
    List.filter_congr fun part _ => Bool.eq_iff_iff.mpr (decide_eq_true_iff.trans isSymbol_iff)
  simp only [ListsSymbols, trimmedParts_iff, exists_eq_left', hfilter, symbols]

theorem isSymbol_of_mem_symbols (h : part ∈ symbols text) : IsSymbol part :=
  isSymbol_iff.mpr (List.mem_filter.mp h).2

theorem trimmed_of_mem_symbols (h : part ∈ symbols text) : Trimmed part := by
  obtain ⟨raw, -, rfl⟩ := List.mem_map.mp (List.mem_filter.mp h).1
  exact trimmed_trim raw

theorem mem_of_mem_trim {c : Char} {cs : List Char} (h : c ∈ trim cs) : c ∈ cs := by
  obtain ⟨lead, trail, -, -, hcs⟩ := exists_trim cs
  rw [hcs]
  exact List.mem_append_left trail (List.mem_append_right lead h)

theorem comma_notMem_of_mem_symbols (h : part ∈ symbols text) : ',' ∉ part := by
  obtain ⟨raw, hraw, rfl⟩ := List.mem_map.mp (List.mem_filter.mp h).1
  exact fun hcomma => comma_notMem_splitCommas text raw hraw (mem_of_mem_trim hcomma)

theorem insideOfKey_keyOfSymbols (parts : List (List Char)) :
    insideOfKey (keyOfSymbols parts) = [',', ' '].intercalate parts := by
  simp [insideOfKey, keyOfSymbols]

theorem symbols_intercalate_symbols (text : List Char) :
    symbols ([',', ' '].intercalate (symbols text)) = symbols text := by
  rw [symbols_intercalate (fun _ => comma_notMem_of_mem_symbols) fun _ => trimmed_of_mem_symbols]
  exact List.filter_eq_self.mpr fun part hpart => isSymbol_iff.mp (isSymbol_of_mem_symbols hpart)

theorem trimmedParts_intercalate_symbols (h : symbols text ≠ []) :
    TrimmedParts ([',', ' '].intercalate (symbols text)) parts ↔ parts = symbols text := by
  obtain ⟨first, more, hsymbols⟩ := List.exists_cons_of_ne_nil h
  have hcomma : ∀ part ∈ symbols text, ',' ∉ part := fun _ => comma_notMem_of_mem_symbols
  have htrimmed : ∀ part ∈ symbols text, Trimmed part := fun _ => trimmed_of_mem_symbols
  rw [hsymbols] at hcomma htrimmed ⊢
  rw [trimmedParts_iff, map_trim_splitCommas hcomma htrimmed, eq_comm]

end

/-- A key is made of the symbols that its item lists, which can be told from the key: they are the
trimmed parts in its brackets, unless nothing stands there. To make a key of what is in a key gives
the same key. -/
theorem normalizeKey_lists_symbols (inner : List Char) :
    ∃ names, (∀ other, ListsSymbols inner other ↔ other = names) ∧
      normalizeKey inner = ['['] ++ [',', ' '].intercalate names ++ [']'] ∧
      (names = [] ∧ insideOfKey (normalizeKey inner) = [] ∨
        names ≠ [] ∧ ∀ parts, TrimmedParts (insideOfKey (normalizeKey inner)) parts ↔
          parts = names) ∧
      normalizeKey (insideOfKey (normalizeKey inner)) = normalizeKey inner := by
  have hinside : insideOfKey (normalizeKey inner) = [',', ' '].intercalate (symbols inner) :=
    insideOfKey_keyOfSymbols _
  refine ⟨symbols inner, fun other => listsSymbols_iff.trans eq_comm, rfl, ?_, ?_⟩
  · rw [hinside]
    by_cases hnone : symbols inner = []
    · exact .inl ⟨hnone, by rw [hnone]; rfl⟩
    · exact .inr ⟨hnone, fun parts => trimmedParts_intercalate_symbols hnone⟩
  · rw [hinside, normalizeKey, symbols_intercalate_symbols, normalizeKey]

/-- A bracket is a symbol like any other, and markers go whatever blanks stand around them. -/
example : normalizeKey "T,\u2003ID ,,NT, [=,\u00a0T".toList = "[ID, [=]".toList := by decide

end CursorState
