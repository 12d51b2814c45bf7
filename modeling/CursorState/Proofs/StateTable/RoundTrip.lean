import CursorState.Proofs.StateTable.DumpText
import CursorState.Proofs.StateTable.Merge
import CursorState.Proofs.StateTable.Reading

/-! Reading a dump gives back the blocks that it was written from. -/
namespace CursorState
open Text

theorem digits_toDigits (n : Nat) : Digits (Nat.toDigits 10 n) :=
  ⟨Nat.toDigits_ne_nil, fun _ hc => isDecimalDigit_of_isDigit (isDigit_of_mem_decimal hc)⟩

namespace DumpItem

variable (x : DumpItem)

def inner : List Char :=
  [',', ' '].intercalate (x.parts.map String.toList)

/-- Whatever brackets the names hold, the line ends in a bracket, a colon and the value. -/
theorem itemLine_render : ItemLine x.render.toList x.inner (Nat.toDigits 10 x.value.toNat) := by
  have hblank : Blanks [' '] := by simp [Blanks, isBlank]
  have hlead : Blanks [' ', ' '] := by simp [Blanks, isBlank]
  have h := @ItemLine.intro _ x.inner _ _ _ [] hlead hblank hblank
    (digits_toDigits x.value.toNat) (fun _ hc => absurd hc List.not_mem_nil)
  simpa [render, inner] using h

theorem symbols_inner :
    CursorState.symbols x.inner = (x.symbols.map Prod.snd).map fun name => name.text.toList := by
  have hcomma : ∀ part ∈ x.parts.map String.toList, ',' ∉ part := by
    rw [List.forall_mem_map]
    refine x.parts_forall (fun kind => ?_) SymbolName.comma
    cases kind <;> decide
  have htrim : ∀ part ∈ x.parts.map String.toList, Trimmed part := by
    rw [List.forall_mem_map]
    exact x.parts_forall SymbolKind.trimmed SymbolName.trimmed
  rw [inner, symbols_intercalate hcomma htrim, x.filter_parts]

theorem normalizeKey_inner : String.ofList (normalizeKey x.inner) = x.content.key := by
  rw [← String.toList_inj, String.toList_ofList, normalizeKey, symbols_inner, content, symbolKey]
  simp [keyOfSymbols, Function.comp_def]

theorem holdsItem_render : HoldsItem x.content x.render.toList :=
  ⟨x.inner, _, x.itemLine_render, x.normalizeKey_inner.symm, denotes_toDigits x.value.toNat⟩

end DumpItem

theorem DumpBlock.headerLine_header (b : DumpBlock) :
    HeaderLine b.header.toList (Nat.toDigits 10 b.id.toNat) := by
  have hblank : Blanks [' '] := by simp [Blanks, isBlank]
  have hnone : Blanks [] := fun _ hc => absurd hc List.not_mem_nil
  have h := HeaderLine.intro hnone hblank (List.cons_ne_nil _ _) (digits_toDigits b.id.toNat) hnone
  simpa [header] using h

theorem DumpBlock.namesState_header (b : DumpBlock) : NamesState b.id b.header.toList :=
  ⟨_, b.headerLine_header, denotes_toDigits b.id.toNat⟩

namespace DumpReading

variable (r : DumpReading) (n : Nat)

theorem readLines_items (t : StateTable) (id : StateId) (before : List StateItem)
    (items : List DumpItem) :
    readLines ⟨t.append id before, some id⟩ n (items.map fun x => x.render.toList) =
      .ok ⟨t.append id (before ++ items.map DumpItem.content), some id⟩ := by
  induction items generalizing before n with
  | nil => simp [readLines]
  | cons x items ih =>
    rw [List.map_cons, readLines, readLine_of_holdsItem x.holdsItem_render,
      StateTable.append_append]
    simp only
    rw [ih, List.append_assoc]
    rfl

theorem readLines_block (b : DumpBlock) :
    r.readLines n (b.lines.map String.toList) =
      .ok ⟨r.table.append b.id b.contents, some b.id⟩ := by
  rw [DumpBlock.lines, List.map_cons, readLines, readLine_of_namesState b.namesState_header,
    List.map_map]
  exact readLines_items (n + 1) r.table b.id [] b.items

theorem readLines_blocks (blocks : List DumpBlock) :
    (r.readLines n ((blocks.flatMap DumpBlock.lines).map String.toList)).map table =
      .ok (r.table.merge ⟨blocks.map DumpBlock.entry⟩) := by
  induction blocks generalizing r n with
  | nil => rfl
  | cons b blocks ih =>
    rw [List.flatMap_cons, List.map_append, readLines_append, readLines_block]
    exact ih _ _

end DumpReading

/-- Merging blocks, one by one, collects the items of each state. -/
theorem empty_merge_blocks (blocks : List DumpBlock) :
    StateTable.empty.merge ⟨blocks.map DumpBlock.entry⟩ = blockTable blocks := by
  have hempty : StateTable.empty.ids = [].eraseDups := rfl
  have hids := StateTable.ids_merge hempty ⟨blocks.map DumpBlock.entry⟩
  have hnone : StateTable.empty.ids.Nodup := List.nodup_nil
  have hentries := StateTable.entries_eq_map_ids
    (StateTable.nodup_ids_merge hnone ⟨blocks.map DumpBlock.entry⟩)
  have hmap : (StateTable.mk (blocks.map DumpBlock.entry)).ids = blocks.map DumpBlock.id :=
    List.map_map
  have hitems (id : StateId) :
      ((blocks.map DumpBlock.entry).filter fun entry => entry.1 = id).flatMap Prod.snd =
        (blocks.filter fun b => b.id = id).flatMap DumpBlock.contents := by
    rw [List.filter_map, List.flatMap_map]
    rfl
  rw [hids, List.nil_append, hmap] at hentries
  refine congrArg StateTable.mk (hentries.trans (List.map_congr_left fun id _ => ?_))
  rw [StateTable.getD_items?_merge, hitems]
  rfl

section Breaks

theorem forall_mem_intercalate {P : Char → Prop} {separator : List Char} {parts : List (List Char)}
    (hseparator : ∀ c ∈ separator, P c) (hparts : ∀ part ∈ parts, ∀ c ∈ part, P c) :
    ∀ c ∈ separator.intercalate parts, P c := by
  induction parts with
  | nil => exact fun c hc => absurd hc List.not_mem_nil
  | cons part parts ih =>
    obtain ⟨hpart, hparts⟩ := List.forall_mem_cons.mp hparts
    by_cases hne : parts = []
    · subst hne
      rwa [List.intercalate_singleton]
    · rw [List.intercalate_cons_of_ne_nil hne, List.forall_mem_append, List.forall_mem_append]
      exact ⟨⟨hpart, hseparator⟩, ih hparts⟩

theorem no_lineBreak_toDigits (n : Nat) : ∀ c ∈ Nat.toDigits 10 n, isLineBreak c = false :=
  fun _ hc => not_isLineBreak_of_isDigit (isDigit_of_mem_decimal hc)

theorem DumpBlock.no_lineBreak_header (b : DumpBlock) :
    ∀ c ∈ b.header.toList, isLineBreak c = false := by
  rw [header, String.toList_append, Nat.toList_repr, List.forall_mem_append]
  exact ⟨by simp [isLineBreak], no_lineBreak_toDigits _⟩

theorem DumpItem.no_lineBreak_render (x : DumpItem) :
    ∀ c ∈ x.render.toList, isLineBreak c = false := by
  have hinner : ∀ c ∈ x.inner, isLineBreak c = false := by
    refine forall_mem_intercalate (by simp [isLineBreak]) ?_
    rw [List.forall_mem_map]
    refine x.parts_forall (fun kind => ?_) SymbolName.lineBreak
    cases kind <;> simp [SymbolKind.marker, isLineBreak]
  simp only [render, String.toList_append, Nat.toList_repr, String.toList_intercalate,
    List.forall_mem_append]
  exact ⟨⟨⟨by simp [isLineBreak], hinner⟩, by simp [isLineBreak]⟩, no_lineBreak_toDigits _⟩

end Breaks

theorem splitLines_renderDump (blocks : List DumpBlock) :
    splitLines (renderDump blocks).toList =
      (blocks.flatMap DumpBlock.lines).map String.toList := by
  have hend : (renderDump blocks).toList =
      endLines ((blocks.flatMap DumpBlock.lines).map String.toList) := by
    simp [renderDump, endLines, String.toList_join, List.flatMap_map]
  rw [hend]
  refine splitLines_endLines (List.forall_mem_map.mpr fun line hline => ?_)
  obtain ⟨b, -, hline⟩ := List.mem_flatMap.mp hline
  rcases List.mem_cons.mp hline with rfl | hline
  · exact b.no_lineBreak_header
  · obtain ⟨x, -, rfl⟩ := List.mem_map.mp hline
    exact x.no_lineBreak_render

/-- A dump that is written from blocks is read as their table, and a key tells the names that it
was made of. -/
theorem ofDump_renderDump (blocks : List DumpBlock) :
    StateTable.ofDump (renderDump blocks) = .ok (blockTable blocks) ∧
      ∀ names names' : List SymbolName, symbolKey names = symbolKey names' → names = names' := by
  refine ⟨?_, fun _ _ h => symbolKey_injective h⟩
  rw [StateTable.ofDump, StateTable.ofLines, splitLines_renderDump,
    DumpReading.readLines_blocks, ← empty_merge_blocks]
  rfl

/-- A name may look like the end of an item. -/
example :
    StateTable.ofDump (renderDump [⟨⟨7⟩, [⟨[(.terminal, ⟨"a] : 1", by decide,
      ⟨by simp [isBlank], by simp [isBlank]⟩, by decide, by simp [isLineBreak],
      by rintro (_ | _) <;> decide⟩)], 3⟩]⟩, ⟨⟨7⟩, [⟨[], 4⟩]⟩]) =
      .ok ⟨[(⟨7⟩, [⟨"[a] : 1]", 3⟩, ⟨"[]", 4⟩])]⟩ := rfl

end CursorState
