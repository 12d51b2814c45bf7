import CursorState.Proofs.Position.Boundary

/-! Cutting a text: the units before an offset where a walk stops do not depend on what follows,
and other bytes may follow unless they would grow the last unit. -/
namespace CursorState

/-- `s` can follow `a` without a part in its last unit: it starts neither inside a character nor
with the second half of a line end. -/
structure Detached (a s : List UInt8) : Prop where
  character : ∀ c ∈ s.head?, ¬ (0x80 ≤ c ∧ c ≤ 0xBF)
  pair : a.getLast? = some 0x0D → s.head? ≠ some 0x0A

theorem Detached.nil (a : List UInt8) : Detached a [] where
  character _ hc := by cases hc
  pair _ := by simp

/-- The last unit of `a` does not reach into `s`: only a character that has a byte from 80 on as its
last could grow, or a carriage return. -/
structure Apart (a s : List UInt8) : Prop where
  character : ∀ b ∈ a.getLast?, 0x80 ≤ b → ∀ c ∈ s.head?, ¬ (0x80 ≤ c ∧ c ≤ 0xBF)
  pair : a.getLast? = some 0x0D → s.head? ≠ some 0x0A

theorem Detached.apart {a s : List UInt8} (h : Detached a s) : Apart a s where
  character _ _ _ := h.character
  pair := h.pair

theorem Apart.of_lineFeed {a : List UInt8} (h : a.getLast? = some 0x0A) (s : List UInt8) :
    Apart a s where
  character b hb hhigh := by
    obtain rfl := Option.some.inj (h.symm.trans hb)
    exact absurd hhigh (by decide)
  pair hlast := absurd (Option.some.inj (h.symm.trans hlast)) (by decide)

theorem Consumes.getLast?_rest {text rest : List UInt8} {u : TextUnit} (h : Consumes text u rest)
    (hrest : rest ≠ []) : rest.getLast? = text.getLast? := by
  rw [← h.drop_eq] at hrest ⊢
  rw [List.getLast?_drop, if_neg fun hle => hrest (List.drop_eq_nil_of_le hle)]

/-- Only the last byte of the first part counts. -/
theorem Apart.of_consumes {a s rest : List UInt8} {u : TextUnit} (h : Apart a s)
    (hc : Consumes a u rest) : Apart rest s := by
  by_cases hrest : rest = []
  · subst hrest
    constructor <;> simp
  · have hlast := hc.getLast?_rest hrest
    exact ⟨hlast ▸ h.character, hlast ▸ h.pair⟩

namespace Consumes

variable {text rest : List UInt8} {u : TextUnit}

theorem append (h : Consumes text u rest) {s : List UInt8} (hs : Apart text s) :
    Consumes (text ++ s) u (rest ++ s) := by
  cases h with
  | lineFeed => exact .lineFeed _
  | carriageReturnLineFeed => exact .carriageReturnLineFeed _
  | tab => exact .tab _
  | single hlf htab hpair hlow =>
    refine .single hlf htab (fun hb => ?_) hlow
    cases rest with
    | nil => exact hs.pair (by rw [hb]; rfl)
    | cons c cs => exact hpair hb
  | @lead b tail _ hhigh hinside houtside =>
    rw [List.cons_append, List.append_assoc]
    refine .lead hhigh hinside ?_
    cases rest with
    | nil =>
      rw [List.append_nil] at hs
      have hlast : (b :: tail).getLast? = some (tail.getLast?.getD b) := List.getLast?_cons
      exact hs.character _ hlast (le_of_mem_lead hhigh hinside _ (List.mem_of_getLast? hlast))
    | cons c cs => exact houtside

theorem take (h : Consumes text u rest) (n : Nat) :
    Consumes (text.take (u.size + n)) u (rest.take n) := by
  have hhead : ∀ c ∈ (rest.take n).head?, c ∈ rest.head? := by
    cases rest <;> cases n <;> simp
  cases h with
  | lineFeed =>
    rw [TextUnit.size, Nat.add_comm, List.take_succ_cons]
    exact .lineFeed _
  | carriageReturnLineFeed =>
    rw [TextUnit.size, Nat.add_comm, List.take_succ_cons, List.take_succ_cons]
    exact .carriageReturnLineFeed _
  | tab =>
    rw [TextUnit.size, Nat.add_comm, List.take_succ_cons]
    exact .tab _
  | single hlf htab hpair hlow =>
    rw [TextUnit.size, Nat.add_comm, List.take_succ_cons]
    exact .single hlf htab (fun hb hlf' => hpair hb (hhead _ hlf')) hlow
  | @lead b tail _ hhigh hinside houtside =>
    rw [TextUnit.size, Nat.add_right_comm, List.take_succ_cons, List.take_length_add_append]
    exact .lead hhigh hinside fun c hc => houtside c (hhead c hc)

end Consumes

theorem units_append {a s : List UInt8} (h : Apart a s) :
    units (a ++ s) = units a ++ units s := by
  induction a using unitInduction with
  | nil => simp [units]
  | unit a u rest hc ih =>
    rw [(hc.append h).units_eq, hc.units_eq, List.cons_append, ih (h.of_consumes hc)]

/-- Where some first units of a text end, it can be cut. -/
theorem units_take {text : List UInt8} {us vs : List TextUnit} (h : units text = us ++ vs) :
    units (text.take (unitsSize us)) = us := by
  induction us generalizing text with
  | nil => simp [units]
  | cons u us ih =>
    cases text with
    | nil => simp [units] at h
    | cons b bytes =>
      obtain ⟨u', rest, hc⟩ := Consumes.exists_of_cons b bytes
      rw [hc.units_eq, List.cons_append] at h
      obtain ⟨rfl, hrest⟩ := List.cons.inj h
      rw [unitsSize_cons, (hc.take _).units_eq, ih hrest]

/-- A walk goes through the first units of a text, and goes no further when others come after
them. It may go on only where it has come to the end. -/
theorem walk_split (w : TabWidth) (target p : Point) (us : List TextUnit) :
    ∃ before after, us = before ++ after ∧ walk w target p us = unitsSize before ∧
      ∀ others, (after = [] → others = []) →
        walk w target p (before ++ others) = unitsSize before := by
  induction us generalizing p with
  | nil => exact ⟨[], [], rfl, rfl, fun others h => by rw [h rfl]; rfl⟩
  | cons u us ih =>
    by_cases h : target ≤ p
    · exact ⟨[], u :: us, rfl, walk_of_le h _, fun others _ => walk_of_le h _⟩
    · obtain ⟨before, after, rfl, hwalk, hothers⟩ := ih (p.advance w u)
      refine ⟨u :: before, after, rfl, ?_, fun others hne => ?_⟩
      · rw [walk_cons h, hwalk, unitsSize_cons]
      · rw [List.cons_append, walk_cons h, hothers others hne, unitsSize_cons]

theorem byteOffset_take_append {text s : List UInt8} {target : Point} {w : TabWidth}
    (hs : Detached (text.take (byteOffset text target w)) s)
    (hend : byteOffset text target w = text.length → s = []) :
    byteOffset (text.take (byteOffset text target w) ++ s) target w =
      byteOffset text target w := by
  obtain ⟨before, after, hunits, hwalk, hothers⟩ := walk_split w target .origin (units text)
  have hoffset : byteOffset text target w = unitsSize before := hwalk
  rw [hoffset] at hs hend ⊢
  rw [byteOffset, units_append hs.apart, units_take hunits]
  refine hothers _ fun hafter => ?_
  have hlen : unitsSize before = text.length := by
    rw [← unitsSize_units, hunits, hafter, List.append_nil]
  rw [hend hlen]
  simp [units]

end CursorState
