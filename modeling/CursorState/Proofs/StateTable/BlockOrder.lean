import CursorState.Proofs.StateTable.Concatenation
import CursorState.Proofs.StateTable.Padding
import CursorState.Proofs.StateTable.SameTable

/-! Dumps made of blocks of lines, one header to a block. Blocks of different states may change
places: the tables are the same but for the order of the states. -/
namespace CursorState
open Text

instance : DecidablePred IsHeader := fun line =>
  decidable_of_iff (DumpLine.header? line).isSome <| by
    rw [Option.isSome_iff_exists]
    exact exists_congr fun _ => DumpLine.header?_eq_some_iff

/-- A header and the lines below it, up to the next header. -/
structure LineBlock where
  header : List Char
  body : List (List Char)
  isHeader : IsHeader header
  noHeader : ∀ line ∈ body, ¬ IsHeader line
  unbroken : ∀ line ∈ header :: body, Unbroken line

namespace LineBlock

def lines (b : LineBlock) : List (List Char) :=
  b.header :: b.body

def id? (b : LineBlock) : Option StateId :=
  ((DumpLine.header? b.header).bind (readBelow UInt16.size)).map StateId.ofNat

def dump (blocks : List LineBlock) : String :=
  String.ofList (endLines (blocks.flatMap lines))

/-- The same blocks in another order. Those of one state keep theirs. -/
structure Rearranged (blocks blocks' : List LineBlock) : Prop where
  perm : blocks.Perm blocks'
  order : ∀ id, blocks.filter (·.id? = some id) = blocks'.filter (·.id? = some id)

theorem id?_eq_some_iff {b : LineBlock} {id : StateId} : b.id? = some id ↔ NamesState id b.header := by
  simp only [id?, NamesState, Option.map_eq_some_iff, Option.bind_eq_some_iff,
    DumpLine.header?_eq_some_iff, readBelow_eq_some_iff]
  constructor
  · rintro ⟨n, ⟨digits, hline, hdigits, hlt⟩, rfl⟩
    exact ⟨digits, hline, by rwa [StateId.toNat_ofNat hlt]⟩
  · rintro ⟨digits, hline, hdigits⟩
    exact ⟨id.toNat, ⟨digits, hline, hdigits, id.toNat_lt⟩, StateId.ofNat_toNat id⟩

end LineBlock

namespace DumpReading

/-! Reading does not depend on what was read before -/

/-- Below the header of a state, the lines append the items to it, or they are refused. -/
def LinesGive (lines : List (List Char)) (given : Option (List StateItem)) : Prop :=
  ∀ (t : StateTable) (id : StateId) (before : List StateItem) (n : Nat),
    (readLines ⟨t.append id before, some id⟩ n lines).toOption =
      given.map fun items => ⟨t.append id (before ++ items), some id⟩

/-- The lines put the entry into the table, or they are refused. -/
def LinesEnter (lines : List (List Char)) (entered : Option (StateId × List StateItem)) : Prop :=
  ∀ (r : DumpReading) (n : Nat),
    (r.readLines n lines).toOption =
      entered.map fun entry => ⟨r.table.append entry.1 entry.2, some entry.1⟩

theorem toOption_readLines_cons (r : DumpReading) (n : Nat) (line : List Char)
    (rest : List (List Char)) :
    (r.readLines n (line :: rest)).toOption =
      (r.readLine n line).toOption.bind fun r' => (r'.readLines (n + 1) rest).toOption := by
  rw [readLines]
  cases r.readLine n line <;> rfl

theorem toOption_readLines_append (r : DumpReading) (n : Nat) (xs ys : List (List Char)) :
    (r.readLines n (xs ++ ys)).toOption =
      (r.readLines n xs).toOption.bind fun r' => (r'.readLines (n + xs.length) ys).toOption := by
  rw [readLines_append]
  cases r.readLines n xs <;> rfl

theorem ofLines_eq_ok_iff {lines : List (List Char)} {t : StateTable} :
    StateTable.ofLines lines = .ok t ↔ (start.readLines 1 lines).toOption.map table = some t := by
  rw [StateTable.ofLines]
  cases start.readLines 1 lines <;> simp [Except.map, Except.toOption]

theorem exists_toOption_readLine {line : List Char} (h : ¬ IsHeader line) :
    ∃ given : Option (List StateItem), ∀ (t : StateTable) (id : StateId)
      (before : List StateItem) (n : Nat),
      (readLine ⟨t.append id before, some id⟩ n line).toOption =
        given.map fun items => ⟨t.append id (before ++ items), some id⟩ := by
  by_cases hitem : IsItem line
  · by_cases hholds : ∃ item, HoldsItem item line
    · obtain ⟨item, hholds⟩ := hholds
      refine ⟨some [item], fun t id before n => ?_⟩
      rw [readLine_of_holdsItem hholds, StateTable.append_append]
      rfl
    · -- the value of the item does not fit
      refine ⟨none, fun t id before n => ?_⟩
      cases hline : readLine ⟨t.append id before, some id⟩ n line with
      | error e => rfl
      | ok r' =>
        rcases readLine_cases hline with ⟨_, hnames, -⟩ | ⟨item, _, hholds', -, -⟩ | ⟨-, hnone, -⟩
        · exact absurd hnames.isHeader h
        · exact absurd ⟨item, hholds'⟩ hholds
        · cases hnone hitem
  · refine ⟨some [], fun t id before n => ?_⟩
    rw [readLine_of_skipped h fun hitem' => absurd hitem' hitem, Option.map_some, List.append_nil]
    rfl

theorem exists_linesGive {lines : List (List Char)} (h : ∀ line ∈ lines, ¬ IsHeader line) :
    ∃ given, LinesGive lines given := by
  induction lines with
  | nil =>
    refine ⟨some [], fun t id before n => ?_⟩
    rw [Option.map_some, List.append_nil]
    rfl
  | cons line lines ih =>
    obtain ⟨hline, hlines⟩ := List.forall_mem_cons.mp h
    obtain ⟨first, hfirst⟩ := exists_toOption_readLine hline
    obtain ⟨rest, hrest⟩ := ih hlines
    refine ⟨first.bind fun xs => rest.map (xs ++ ·), fun t id before n => ?_⟩
    rw [toOption_readLines_cons, hfirst]
    cases first with
    | none => rfl
    | some xs =>
      simp only [Option.map_some, Option.bind_some]
      rw [hrest]
      cases rest <;> simp

end DumpReading

namespace LineBlock
open DumpReading

theorem exists_linesEnter (b : LineBlock) :
    ∃ entered, LinesEnter b.lines entered ∧ ∀ entry ∈ entered, b.id? = some entry.1 := by
  obtain ⟨given, hgiven⟩ := exists_linesGive b.noHeader
  refine ⟨b.id?.bind fun id => given.map (id, ·), fun r n => ?_, ?_⟩
  · rw [lines, toOption_readLines_cons]
    cases hid : b.id? with
    | none =>
      cases hline : r.readLine n b.header with
      | error e => rfl
      | ok r' =>
        rcases readLine_cases hline with ⟨id, hnames, -⟩ | ⟨_, _, hholds, -, -⟩ | ⟨hno, -, -⟩
        · rw [id?_eq_some_iff.mpr hnames] at hid
          cases hid
        · exact absurd hholds.isItem b.isHeader.not_isItem
        · exact absurd b.isHeader hno
    | some id =>
      rw [readLine_of_namesState (id?_eq_some_iff.mp hid)]
      refine (hgiven r.table id [] (n + 1)).trans ?_
      cases given <;> simp
  · cases hid : b.id? with
    | none => simp
    | some id => cases given <;> simp

section Blocks

variable {entered : LineBlock → Option (StateId × List StateItem)} {blocks blocks' : List LineBlock}
  {t t' : StateTable}

section Reading
variable (henters : ∀ b, LinesEnter b.lines (entered b))
include henters

/-- If no block is refused, all that they enter is merged into what was read before. -/
theorem toOption_readLines_blocks (r : DumpReading) (n : Nat) (blocks : List LineBlock) :
    (r.readLines n (blocks.flatMap lines)).toOption.map table =
      if ∀ b ∈ blocks, (entered b).isSome then some (r.table.merge ⟨blocks.filterMap entered⟩)
      else none := by
  induction blocks generalizing r n with
  | nil => simp [readLines, StateTable.merge, Except.toOption]
  | cons b blocks ih =>
    rw [List.flatMap_cons, toOption_readLines_append, henters b r n]
    cases hb : entered b with
    | none => simp [hb]
    | some entry =>
      rw [Option.map_some, Option.bind_some, ih, List.filterMap_cons_some hb,
        StateTable.merge_cons]
      simp [hb]

theorem ofDump_dump_eq_ok_iff :
    StateTable.ofDump (dump blocks) = .ok t ↔
      (∀ b ∈ blocks, (entered b).isSome) ∧
        StateTable.empty.merge ⟨blocks.filterMap entered⟩ = t := by
  have hunbroken : ∀ line ∈ blocks.flatMap lines, Unbroken line := fun line hline => by
    obtain ⟨b, -, hline⟩ := List.mem_flatMap.mp hline
    exact b.unbroken line hline
  rw [StateTable.ofDump, dump, String.toList_ofList, splitLines_endLines hunbroken,
    ofLines_eq_ok_iff, toOption_readLines_blocks henters, Option.ite_none_right_eq_some,
    Option.some.injEq]
  rfl

end Reading

section Order
variable (hid : ∀ b, ∀ entry ∈ entered b, b.id? = some entry.1)
include hid

theorem filter_filterMap_entered (blocks : List LineBlock) (id : StateId) :
    (blocks.filterMap entered).filter (fun entry => entry.1 = id) =
      (blocks.filter (·.id? = some id)).filterMap entered := by
  rw [List.filter_filterMap, List.filterMap_filter]
  refine List.filterMap_congr fun b _ => ?_
  cases hb : entered b with
  | none => simp
  | some entry => simp [Option.filter, hid b entry hb]

/-- The blocks of each state come in the same order, so the tables tell the same. -/
theorem Rearranged.items?_merge (h : Rearranged blocks blocks') (id : StateId) :
    (StateTable.empty.merge ⟨blocks.filterMap entered⟩).items? id =
      (StateTable.empty.merge ⟨blocks'.filterMap entered⟩).items? id := by
  have hempty : StateTable.empty.ids = [].eraseDups := rfl
  refine StateTable.items?_eq_of_getD ?_ ?_
  · rw [StateTable.ids_merge hempty, StateTable.ids_merge hempty, List.mem_eraseDups,
      List.mem_eraseDups]
    exact ((h.perm.filterMap entered).map Prod.fst).mem_iff
  · rw [StateTable.getD_items?_merge, StateTable.getD_items?_merge,
      filter_filterMap_entered hid, filter_filterMap_entered hid, h.order]

end Order
end Blocks
end LineBlock

namespace StateTable
open LineBlock

inductive Reachable : StateTable → Prop
  | ofDump {text : String} {t : StateTable} (h : StateTable.ofDump text = .ok t) : Reachable t
  | pad {t : StateTable} (h : Reachable t) : Reachable t.pad

theorem nodup_ids_of_ofDump {text : String} {t : StateTable} (h : StateTable.ofDump text = .ok t) :
    t.ids.Nodup := by
  obtain ⟨r, hr, rfl⟩ := exists_reading h
  exact (ReadingOf.start.readLines hr).nodup

theorem Reachable.nodup_ids {t : StateTable} (h : Reachable t) : t.ids.Nodup := by
  induction h with
  | ofDump h => exact nodup_ids_of_ofDump h
  | pad _ ih => exact nodup_ids_pad ih

/-- Blocks of different states may change places in a dump. It is refused or not as before, and the
tables are equal but for the order of their states. That is an equality in its own right: no state
stands twice, and where that is so, it is an equivalence and says that both tables tell the same of
each state. -/
theorem same_of_rearranged {blocks blocks' : List LineBlock} (h : Rearranged blocks blocks') :
    ((∃ t, ofDump (dump blocks) = .ok t) ↔ ∃ t, ofDump (dump blocks') = .ok t) ∧
      (∀ t t', ofDump (dump blocks) = .ok t → ofDump (dump blocks') = .ok t' → t.same t') ∧
      (∀ t, Reachable t → t.ids.Nodup) ∧
      (∀ t u : StateTable, t.ids.Nodup → u.ids.Nodup →
        (t.same u ↔ ∀ id, t.items? id = u.items? id)) ∧
      Equivalence fun t u : { t : StateTable // t.ids.Nodup } => t.val.same u.val = true := by
  choose entered henters hid using exists_linesEnter
  refine ⟨?_, fun t t' ht ht' => ?_, fun t => Reachable.nodup_ids, fun t u => same_iff,
    same_equivalence⟩
  · simp only [ofDump_dump_eq_ok_iff henters, exists_and_left, exists_eq', and_true,
      h.perm.mem_iff]
  · refine (same_iff (nodup_ids_of_ofDump ht) (nodup_ids_of_ofDump ht')).mpr fun id => ?_
    obtain ⟨-, rfl⟩ := (ofDump_dump_eq_ok_iff henters).mp ht
    obtain ⟨-, rfl⟩ := (ofDump_dump_eq_ok_iff henters).mp ht'
    exact h.items?_merge hid id

/-- State 1 may come first or between the blocks of state 2. -/
theorem same_of_rearranged_two_states :
    let x : LineBlock := ⟨"State 2".toList, ["[x] : 1".toList], by decide, by decide, by decide⟩
    let y : LineBlock := ⟨"State 02".toList, ["[y] : 2".toList], by decide, by decide, by decide⟩
    let one : LineBlock := ⟨"State 1".toList, [], by decide, by decide, by decide⟩
    let t : StateTable := ⟨[(⟨2⟩, [⟨"[x]", 1⟩, ⟨"[y]", 2⟩]), (⟨1⟩, [])]⟩
    let t' : StateTable := ⟨[(⟨1⟩, []), (⟨2⟩, [⟨"[x]", 1⟩, ⟨"[y]", 2⟩])]⟩
    Rearranged [x, one, y] [one, x, y] ∧ ofDump (dump [x, one, y]) = .ok t ∧
      ofDump (dump [one, x, y]) = .ok t' ∧ t.same t' := by
  intro x y one t t'
  have hx : x.id? = some ⟨2⟩ := rfl
  have hy : y.id? = some ⟨2⟩ := rfl
  have hone : one.id? = some ⟨1⟩ := rfl
  have h : Rearranged [x, one, y] [one, x, y] := by
    refine ⟨.swap one x [y], fun id => ?_⟩
    by_cases h1 : id = ⟨1⟩
    · subst h1
      simp [hx, hy, hone]
    · simp [List.filter_cons, hone, Ne.symm h1]
  have hdump : dump [x, one, y] = "State 2\n[x] : 1\nState 1\nState 02\n[y] : 2\n" := rfl
  have hdump' : dump [one, x, y] = "State 1\nState 2\n[x] : 1\nState 02\n[y] : 2\n" := rfl
  have ht : ofDump (dump [x, one, y]) = .ok t := by
    rw [hdump]
    rfl
  have ht' : ofDump (dump [one, x, y]) = .ok t' := by
    rw [hdump']
    rfl
  exact ⟨h, ht, ht', (same_of_rearranged h).2.1 t t' ht ht'⟩

end StateTable
end CursorState
