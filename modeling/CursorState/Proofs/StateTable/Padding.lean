import Mathlib.Order.Lattice
import Mathlib.Data.List.Perm.Basic
import CursorState.Proofs.StateTable.Append
import CursorState.StateTable.Conversion

/-! Padding: the states of a table stay in front with their items, and behind them come the states
that it lacks, up to its highest one. -/
namespace CursorState

variable {t u : StateTable} {id max : StateId} {n : Nat}

/-- The entries are those of `t` and behind them, in ascending order and without items, those of the
states below `n` that it lacks. -/
def PaddedBelow (t : StateTable) (n : Nat) (entries : List (StateId × List StateItem)) : Prop :=
  ∃ added : List StateId, entries = t.entries ++ added.map (fun id => (id, [])) ∧
    added.Pairwise (fun a b => a.toNat < b.toNat) ∧
    ∀ id, id ∈ added ↔ id.toNat < n ∧ id ∉ t.ids

structure EnteredBelow (t : StateTable) (n : Nat) (e : IndexedEntries) : Prop where
  index : ∀ id, id ∈ e.index ↔ id ∈ t.ids ∨ id.toNat < n
  entries : PaddedBelow t n e.entries.toList

structure Padded (t : StateTable) (max : StateId) (u : StateTable) : Prop where
  entries : PaddedBelow t (max.toNat + 1) u.entries
  mem_ids : ∀ id, id ∈ u.ids ↔ id.toNat ≤ max.toNat
  nodup : u.ids.Nodup
  size : u.size = max.toNat + 1

namespace EnteredBelow

variable {e : IndexedEntries}

theorem start (t : StateTable) : EnteredBelow t 0 t.indexed where
  index id := by simp [StateTable.indexed]
  entries := ⟨[], by simp [StateTable.indexed], .nil, by simp⟩

theorem enter (h : EnteredBelow t n e) (hn : n < UInt16.size) :
    EnteredBelow t (n + 1) (e.enter (.ofNat n)) := by
  obtain ⟨hindex, added, hentries, hsorted, hadded⟩ := h
  have hnat : (StateId.ofNat n).toNat = n := StateId.toNat_ofNat hn
  have hnew (id : StateId) : id.toNat < n + 1 ↔ id.toNat < n ∨ id = .ofNat n := by
    rw [Nat.lt_succ_iff_lt_or_eq, ← StateId.toNat_inj, hnat]
  have hmem : StateId.ofNat n ∈ e.index ↔ StateId.ofNat n ∈ t.ids := by
    rw [hindex, hnat, or_iff_left (Nat.lt_irrefl n)]
  rw [IndexedEntries.enter]
  split
  · next hc =>
    -- the state is one of those that were there before
    have hold := hmem.mp hc
    refine ⟨fun id => ?_, added, hentries, hsorted, fun id => ?_⟩
    · rw [hindex, hnew, ← or_assoc]
      refine (or_iff_left_of_imp ?_).symm
      rintro rfl
      exact .inl hold
    · rw [hadded, hnew, or_and_right]
      refine (or_iff_left ?_).symm
      rintro ⟨rfl, hno⟩
      exact hno hold
  · next hc =>
    -- it goes to the end, behind all smaller ones
    have hold : StateId.ofNat n ∉ t.ids := mt hmem.mpr hc
    refine ⟨fun id => ?_, added ++ [.ofNat n], ?_, ?_, fun id => ?_⟩
    · rw [Std.HashSet.mem_insert, hindex, hnew, beq_iff_eq]
      tauto
    · simp [hentries]
    · rw [List.pairwise_append]
      refine ⟨hsorted, List.pairwise_singleton _ _, fun a ha b hb => ?_⟩
      rw [List.mem_singleton.mp hb, hnat]
      exact ((hadded a).mp ha).1
    · rw [List.mem_append, List.mem_singleton, hadded, hnew, or_and_right]
      refine or_congr_right (and_iff_left_of_imp ?_).symm
      rintro rfl
      exact hold

theorem foldl_enter (t : StateTable) (hn : n ≤ UInt16.size) :
    EnteredBelow t n (((List.range n).map StateId.ofNat).foldl IndexedEntries.enter t.indexed) := by
  induction n with
  | zero => exact start t
  | succ n ih =>
    rw [List.range_succ, List.map_append, List.foldl_append]
    exact (ih (Nat.le_of_succ_le hn)).enter hn

end EnteredBelow

namespace StateTable

theorem maxId?_eq_some_iff : t.maxId? = some n ↔
    ∃ max ∈ t.ids, max.toNat = n ∧ ∀ id ∈ t.ids, id.toNat ≤ max.toNat := by
  rw [maxId?, List.max?_eq_some_iff, List.forall_mem_map, List.mem_map]
  constructor
  · rintro ⟨⟨max, hmax, rfl⟩, hle⟩
    exact ⟨max, hmax, rfl, hle⟩
  · rintro ⟨max, hmax, rfl, hle⟩
    exact ⟨⟨max, hmax, rfl⟩, hle⟩

theorem maxId?_eq_none_iff : t.maxId? = none ↔ t.ids = [] := by
  rw [maxId?, List.max?_eq_none_iff, List.map_eq_nil_iff]

theorem pad_of_ids_eq_nil (h : t.ids = []) : t.pad = t := by
  rw [pad, maxId?_eq_none_iff.mpr h]

section Highest
variable (hmax : max ∈ t.ids) (hle : ∀ id ∈ t.ids, id.toNat ≤ max.toNat)
include hmax hle

theorem paddedBelow_pad : PaddedBelow t (max.toNat + 1) t.pad.entries := by
  have hsome := maxId?_eq_some_iff.mpr ⟨max, hmax, rfl, hle⟩
  have h := EnteredBelow.foldl_enter t (Nat.succ_le_of_lt max.toNat_lt)
  rw [pad, hsome]
  exact h.entries

theorem exists_ids_pad : ∃ added : List StateId, t.pad.ids = t.ids ++ added ∧
    added.Pairwise (fun a b => a.toNat < b.toNat) ∧
    ∀ id, id ∈ added ↔ id.toNat ≤ max.toNat ∧ id ∉ t.ids := by
  obtain ⟨added, hentries, hsorted, hadded⟩ := paddedBelow_pad hmax hle
  refine ⟨added, ?_, hsorted, fun id => (hadded id).trans (and_congr_left' Nat.lt_succ_iff)⟩
  rw [ids, hentries, List.map_append, List.map_map, ids]
  exact congrArg _ (List.map_id added)

theorem mem_ids_pad : id ∈ t.pad.ids ↔ id.toNat ≤ max.toNat := by
  obtain ⟨added, hids, -, hadded⟩ := exists_ids_pad hmax hle
  rw [hids, List.mem_append, hadded]
  constructor
  · rintro (h | ⟨h, -⟩)
    · exact hle id h
    · exact h
  · intro h
    by_cases hid : id ∈ t.ids
    · exact .inl hid
    · exact .inr ⟨h, hid⟩

end Highest

theorem pad_pad (t : StateTable) : t.pad.pad = t.pad := by
  cases hmax : t.maxId? with
  | none =>
    have hnil := maxId?_eq_none_iff.mp hmax
    rw [pad_of_ids_eq_nil hnil, pad_of_ids_eq_nil hnil]
  | some n =>
    obtain ⟨max, hmem, -, hle⟩ := maxId?_eq_some_iff.mp hmax
    have hids (id : StateId) : id ∈ t.pad.ids ↔ id.toNat ≤ max.toNat := mem_ids_pad hmem hle
    obtain ⟨added, hentries, -, hadded⟩ :=
      paddedBelow_pad ((hids max).mpr (Nat.le_refl _)) fun id => (hids id).mp
    have hnone : added = [] := by
      refine List.eq_nil_iff_forall_not_mem.mpr fun id hid => ?_
      obtain ⟨hlt, hno⟩ := (hadded id).mp hid
      exact hno ((hids id).mpr (Nat.le_of_lt_succ hlt))
    rw [hnone, List.map_nil, List.append_nil] at hentries
    exact congrArg mk hentries

theorem nodup_ids_pad (h : t.ids.Nodup) : t.pad.ids.Nodup := by
  cases hmax : t.maxId? with
  | none => rwa [pad_of_ids_eq_nil (maxId?_eq_none_iff.mp hmax)]
  | some n =>
    obtain ⟨max, hmem, -, hle⟩ := maxId?_eq_some_iff.mp hmax
    obtain ⟨added, hids, hsorted, hadded⟩ := exists_ids_pad hmem hle
    rw [hids, List.nodup_append]
    refine ⟨h, hsorted.imp fun hlt heq => ?_, fun id hid id' hid' heq => ?_⟩
    · exact absurd (congrArg StateId.toNat heq) hlt.ne
    · exact ((hadded id').mp hid').2 (heq ▸ hid)

theorem size_eq_of_mem_ids_iff (h : t.ids.Nodup) (hmem : ∀ id, id ∈ t.ids ↔ id.toNat < n)
    (hn : n ≤ UInt16.size) : t.size = n := by
  have hperm : (t.ids.map StateId.toNat).Perm (List.range n) := by
    refine (List.perm_ext_iff_of_nodup (h.map fun _ _ => StateId.toNat_inj.mp)
      List.nodup_range).mpr fun k => ?_
    rw [List.mem_map, List.mem_range]
    constructor
    · rintro ⟨id, hid, rfl⟩
      exact (hmem id).mp hid
    · intro hk
      have hnat := StateId.toNat_ofNat (hk.trans_le hn)
      exact ⟨.ofNat k, (hmem _).mpr (hnat.symm ▸ hk), hnat⟩
  have hlength := hperm.length_eq
  rwa [List.length_map, List.length_range, ids, List.length_map] at hlength

theorem padded_pad (h : t.ids.Nodup) (hmax : max ∈ t.ids)
    (hle : ∀ id ∈ t.ids, id.toNat ≤ max.toNat) : Padded t max t.pad where
  entries := paddedBelow_pad hmax hle
  mem_ids _ := mem_ids_pad hmax hle
  nodup := nodup_ids_pad h
  size := size_eq_of_mem_ids_iff (nodup_ids_pad h)
    (fun _ => (mem_ids_pad hmax hle).trans Nat.lt_succ_iff.symm) (Nat.succ_le_of_lt max.toNat_lt)

/-- Padding does not decide whether a dump is converted, nor the error. It leaves what is there in
front and adds what is missing up to the highest state, once and for all. -/
theorem convert_pad (dump : String) {t : StateTable} (h : t.ids.Nodup) :
    ((∃ e, convert dump true = .error e ∧ convert dump false = .error e) ∨
        ∃ u, convert dump true = .ok u.pad ∧ convert dump false = .ok u) ∧
      (∀ max ∈ t.ids, (∀ id ∈ t.ids, id.toNat ≤ max.toNat) → Padded t max t.pad) ∧
      (t.isEmpty → t.pad = t) ∧ t.pad.pad = t.pad := by
  refine ⟨?_, fun max hmax hle => padded_pad h hmax hle, fun hempty => ?_, pad_pad t⟩
  · cases hdump : ofDump dump with
    | error e => exact .inl ⟨e, by rw [convert, hdump]; rfl, by rw [convert, hdump]; rfl⟩
    | ok u => exact .inr ⟨u, by rw [convert, hdump]; rfl, by rw [convert, hdump]; rfl⟩
  · have hnil := List.isEmpty_iff.mp hempty
    exact pad_of_ids_eq_nil (by rw [ids, hnil, List.map_nil])

/-- The highest state that there can be. -/
theorem convert_pad_last :
    let t : StateTable := ⟨[(⟨65535⟩, [⟨"[a]", 1⟩]), (⟨2⟩, [])]⟩
    t.ids.Nodup ∧ Padded t ⟨65535⟩ t.pad ∧ t.pad.size = 65536 := by
  intro t
  have hnodup : t.ids.Nodup := by decide
  obtain ⟨-, hpadded, -, -⟩ := convert_pad "" hnodup
  have hlast := hpadded ⟨65535⟩ (by decide) (by decide)
  exact ⟨hnodup, hlast, hlast.size⟩

end StateTable
end CursorState
