import Mathlib.Data.Nat.Find
import CursorState.Proofs.StateTable.NextLine

/-! Reading a dump line by line keeps up with what the lines read so far say. -/
namespace CursorState
open Text

/-- What has been read of a dump agrees with its lines so far. -/
structure ReadingOf (lines : List (List Char)) (r : DumpReading) : Prop where
  headers : ∀ i, LineAt IsHeader lines i → ∃ id, LineAt (NamesState id) lines i
  current : ∀ id, r.current = some id ↔ Under lines id lines.length
  nodup : r.table.ids.Nodup
  ids : Lists (Opens lines) (fun id => LineAt (NamesState id) lines) r.table.ids
  items : ∀ id, Lists (BelongsTo lines id) (fun item => LineAt (HoldsItem item) lines)
    ((r.table.items? id).getD [])

namespace ReadingOf

theorem start : ReadingOf [] .start where
  headers i h := absurd h.lt (Nat.not_lt_zero i)
  current id := by
    constructor
    · intro h
      cases h
    · rintro ⟨j, hj, -⟩
      exact absurd hj (Nat.not_lt_zero j)
  nodup := List.nodup_nil
  ids := ⟨[], .nil, fun i => by simp [Opens, LineAt], .nil⟩
  items id := ⟨[], .nil, fun i => by simp [BelongsTo, LineAt], .nil⟩

variable {lines : List (List Char)} {line : List Char} {r r' : DumpReading} {id : StateId}
  {x : StateItem}

theorem mem_ids (h : ReadingOf lines r) :
    id ∈ r.table.ids ↔ ∃ i, LineAt (NamesState id) lines i := by
  classical
  constructor
  · intro hid
    obtain ⟨i, -, hi⟩ := h.ids.exists_index hid
    exact ⟨i, hi⟩
  · intro hex
    have hopens : Opens lines (Nat.find hex) := ⟨id, Nat.find_spec hex, fun _ => Nat.find_min hex⟩
    obtain ⟨id', hid', line', hline', hnames'⟩ := h.ids.exists_value hopens
    obtain ⟨line, hline, hnames⟩ := Nat.find_spec hex
    obtain rfl : line = line' := Option.some.inj (hline.symm.trans hline')
    rwa [hnames.unique hnames']

theorem header (h : ReadingOf lines r) (hn : NamesState id line) :
    ReadingOf (lines ++ [line]) ⟨r.table.append id [], some id⟩ where
  headers := headers_snoc h.headers fun _ => ⟨id, hn⟩
  current id' := by
    rw [List.length_append, List.length_singleton, under_snoc_of_header hn.isHeader,
      Option.some.injEq]
    constructor
    · rintro rfl
      exact hn
    · exact hn.unique
  nodup := StateTable.nodup_ids_append id [] h.nodup
  ids := by
    -- a header opens its state unless an earlier one did
    by_cases hm : id ∈ r.table.ids
    · rw [StateTable.ids_append_of_mem [] hm]
      refine h.ids.congr (fun i => opens_snoc.trans (or_iff_left ?_)) fun _ _ => LineAt.snoc
      rintro ⟨-, id', hn', hnone⟩
      obtain ⟨j, hj⟩ := h.mem_ids.mp hm
      exact hnone j (hn'.unique hn ▸ hj)
    · rw [StateTable.ids_append_of_notMem [] hm]
      refine h.ids.snoc (fun i hi => ?_) (fun i => opens_snoc.trans (or_congr_right ?_))
        (fun _ _ => LineAt.snoc) (lineAt_snoc.mpr (.inr ⟨rfl, hn⟩))
      · obtain ⟨_, hat, -⟩ := hi
        exact hat.lt
      · refine and_iff_left ⟨id, hn, fun j hj => hm (h.mem_ids.mpr ⟨j, hj⟩)⟩
  items id' := by
    rw [StateTable.getD_items?_append, ite_self, List.append_nil]
    refine (h.items id').congr (fun i => belongsTo_snoc.trans (or_iff_left ?_))
      fun _ _ => LineAt.snoc
    rintro ⟨-, hi, -⟩
    exact hn.isHeader.not_isItem hi

theorem mem_ids_of_current (h : ReadingOf lines r) (hc : r.current = some id) :
    id ∈ r.table.ids := by
  obtain ⟨j, -, hnames, -⟩ := (h.current id).mp hc
  exact h.mem_ids.mpr ⟨j, hnames⟩

theorem opens_iff (hh : ¬ IsHeader line) (i : Nat) :
    Opens (lines ++ [line]) i ↔ Opens lines i := by
  refine opens_snoc.trans (or_iff_left ?_)
  rintro ⟨-, id, hn, -⟩
  exact hh hn.isHeader

theorem item (h : ReadingOf lines r) (hi : HoldsItem x line) (hc : r.current = some id) :
    ReadingOf (lines ++ [line]) ⟨r.table.append id [x], some id⟩ := by
  have hh : ¬ IsHeader line := fun hh => hh.not_isItem hi.isItem
  have hids := StateTable.ids_append_of_mem [x] (h.mem_ids_of_current hc)
  have hunder : ∀ id', Under lines id' lines.length ↔ id = id' := fun id' => by
    rw [← h.current, hc, Option.some.injEq]
  exact {
    headers := headers_snoc h.headers fun hh' => absurd hh' hh
    current := fun id' => by
      rw [List.length_append, List.length_singleton, under_snoc_of_not_header hh, hunder,
        Option.some.injEq]
    nodup := StateTable.nodup_ids_append id [x] h.nodup
    ids := by
      rw [hids]
      exact h.ids.congr (opens_iff hh) fun _ _ => LineAt.snoc
    items := fun id' => by
      rw [StateTable.getD_items?_append]
      by_cases he : id' = id
      · subst he
        rw [if_pos rfl]
        refine (h.items id').snoc (fun i hb => hb.1.lt)
          (fun i => belongsTo_snoc.trans (or_congr_right ?_)) (fun _ _ => LineAt.snoc)
          (lineAt_snoc.mpr (.inr ⟨rfl, hi⟩))
        exact and_iff_left ⟨hi.isItem, (hunder id').mpr rfl⟩
      · rw [if_neg he, List.append_nil]
        refine (h.items id').congr (fun i => belongsTo_snoc.trans (or_iff_left ?_))
          fun _ _ => LineAt.snoc
        rintro ⟨-, -, hu⟩
        exact he ((hunder id').mp hu).symm }

theorem skip (h : ReadingOf lines r) (hh : ¬ IsHeader line) (hi : IsItem line → r.current = none) :
    ReadingOf (lines ++ [line]) r where
  headers := headers_snoc h.headers fun hh' => absurd hh' hh
  current id := by
    rw [List.length_append, List.length_singleton, under_snoc_of_not_header hh, h.current]
  nodup := h.nodup
  ids := h.ids.congr (opens_iff hh) fun _ _ => LineAt.snoc
  items id := by
    refine (h.items id).congr (fun i => belongsTo_snoc.trans (or_iff_left ?_))
      fun _ _ => LineAt.snoc
    rintro ⟨-, hitem, hu⟩
    have hc := (h.current id).mpr hu
    rw [hi hitem] at hc
    cases hc

theorem readLine {n : Nat} (h : ReadingOf lines r) (hr : r.readLine n line = .ok r') :
    ReadingOf (lines ++ [line]) r' := by
  rcases readLine_cases hr with ⟨id, hn, rfl⟩ | ⟨x, id, hi, hc, rfl⟩ | ⟨hh, hi, rfl⟩
  · exact h.header hn
  · exact h.item hi hc
  · exact h.skip hh hi

theorem readLines {n : Nat} {rest : List (List Char)} (h : ReadingOf lines r)
    (hr : r.readLines n rest = .ok r') : ReadingOf (lines ++ rest) r' := by
  induction rest generalizing lines r n with
  | nil =>
    obtain rfl := Except.ok.inj hr
    rwa [List.append_nil]
  | cons line rest ih =>
    rw [DumpReading.readLines] at hr
    split at hr
    · next r₁ h₁ =>
      rw [List.append_cons]
      exact ih (h.readLine h₁) hr
    · cases hr

theorem tableOf (h : ReadingOf lines r) : TableOf lines r.table where
  headers := h.headers
  nodup := h.nodup
  ids := h.ids
  items entry he := by
    have hi := h.items entry.1
    rwa [StateTable.items?_eq_some_of_mem h.nodup he, Option.getD_some] at hi

end ReadingOf

/-- The table that is read from a dump is the one that its lines tell. -/
theorem tableOf_ofDump {text : String} {t : StateTable} (h : StateTable.ofDump text = .ok t) :
    TableOf (splitLines text.toList) t := by
  unfold StateTable.ofDump StateTable.ofLines at h
  cases hr : DumpReading.start.readLines 1 (splitLines text.toList) with
  | error e =>
    rw [hr] at h
    cases h
  | ok r =>
    rw [hr] at h
    obtain rfl := Except.ok.inj h
    exact (ReadingOf.start.readLines hr).tableOf

/-- An item before any header, and a state that is opened twice. -/
theorem tableOf_ofDump_reopened :
    StateTable.ofDump "[x] : 1\nState 7\n[NT, a] : 2\nState 3\nState 7\n [b, T] : 4" =
        .ok ⟨[(⟨7⟩, [⟨"[a]", 2⟩, ⟨"[b]", 4⟩]), (⟨3⟩, [])]⟩ ∧
      TableOf
        (splitLines
          "[x] : 1\nState 7\n[NT, a] : 2\nState 3\nState 7\n [b, T] : 4".toList)
        ⟨[(⟨7⟩, [⟨"[a]", 2⟩, ⟨"[b]", 4⟩]), (⟨3⟩, [])]⟩ :=
  ⟨rfl, tableOf_ofDump rfl⟩

end CursorState
