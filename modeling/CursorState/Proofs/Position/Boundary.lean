import Mathlib.Data.List.TakeWhile
import CursorState.Proofs.Position.Place

/-! Unit boundaries: the offsets that are reached by consuming one unit after the other, each with
its place. The list of units that a walk goes through consumes a text in the same way. -/
namespace CursorState

theorem isContinuation_iff {b : UInt8} : isContinuation b ↔ 0x80 ≤ b ∧ b ≤ 0xBF := by
  rcases b with ⟨v⟩
  revert v
  decide

/-- `Consumes text u rest`: the text starts with the unit `u`, and `rest` is what follows. -/
inductive Consumes : List UInt8 → TextUnit → List UInt8 → Prop
  | lineFeed (rest : List UInt8) : Consumes (0x0A :: rest) .lineFeed rest
  | carriageReturnLineFeed (rest : List UInt8) :
      Consumes (0x0D :: 0x0A :: rest) .carriageReturnLineFeed rest
  | tab (rest : List UInt8) : Consumes (0x09 :: rest) .tab rest
  | single {b : UInt8} {rest : List UInt8} (lineFeed : b ≠ 0x0A) (tab : b ≠ 0x09)
      (pair : b = 0x0D → rest.head? ≠ some 0x0A) (low : b < 0xC0) :
      Consumes (b :: rest) (.character 0) rest
  | lead {b : UInt8} {tail rest : List UInt8} (high : 0xC0 ≤ b)
      (inside : ∀ c ∈ tail, 0x80 ≤ c ∧ c ≤ 0xBF)
      (outside : ∀ c ∈ rest.head?, ¬ (0x80 ≤ c ∧ c ≤ 0xBF)) :
      Consumes (b :: (tail ++ rest)) (.character tail.length) rest

/-- `Boundary w start text o p`: in a text whose first byte stands at `start`, a unit starts or the
text ends at the offset `o`, and its place is `p`. -/
inductive Boundary (w : TabWidth) : Place → List UInt8 → Nat → Place → Prop
  | here (start : Place) (text : List UInt8) : Boundary w start text 0 start
  | next {start p : Place} {text rest : List UInt8} {u : TextUnit} {o : Nat} :
      Consumes text u rest → Boundary w (start.advance w u) rest o p →
      Boundary w start text (u.size + o) p

theorem le_of_mem_lead {b : UInt8} {tail : List UInt8} (high : 0xC0 ≤ b)
    (inside : ∀ c ∈ tail, 0x80 ≤ c ∧ c ≤ 0xBF) : ∀ c ∈ b :: tail, 0x80 ≤ c :=
  List.forall_mem_cons.mpr ⟨UInt8.le_trans (by decide) high, fun c hc => (inside c hc).1⟩

theorem lineFeed_notMem_lead {b : UInt8} {tail : List UInt8} (high : 0xC0 ≤ b)
    (inside : ∀ c ∈ tail, 0x80 ≤ c ∧ c ≤ 0xBF) : 0x0A ∉ b :: tail :=
  fun hmem => absurd (le_of_mem_lead high inside _ hmem) (by decide)

theorem continuationLength_of_low {b : UInt8} (h : b < 0xC0) (rest : List UInt8) :
    continuationLength b rest = 0 :=
  if_neg (UInt8.not_le.mpr h)

theorem continuationLength_append {b : UInt8} {tail rest : List UInt8} (high : 0xC0 ≤ b)
    (inside : ∀ c ∈ tail, 0x80 ≤ c ∧ c ≤ 0xBF)
    (outside : ∀ c ∈ rest.head?, ¬ (0x80 ≤ c ∧ c ≤ 0xBF)) :
    continuationLength b (tail ++ rest) = tail.length := by
  have hstop : rest.takeWhile isContinuation = [] := by
    cases rest with
    | nil => rfl
    | cons c cs =>
      have hc := outside c rfl
      rw [← isContinuation_iff] at hc
      simp [hc]
  rw [continuationLength, if_pos high,
    List.takeWhile_append_of_pos fun c hc => isContinuation_iff.mpr (inside c hc), hstop,
    List.append_nil]

theorem exists_continuation_split (bytes : List UInt8) :
    ∃ tail rest, bytes = tail ++ rest ∧ (∀ c ∈ tail, 0x80 ≤ c ∧ c ≤ 0xBF) ∧
      ∀ c ∈ rest.head?, ¬ (0x80 ≤ c ∧ c ≤ 0xBF) := by
  refine ⟨bytes.takeWhile isContinuation, bytes.dropWhile isContinuation,
    List.takeWhile_append_dropWhile.symm, fun c hc => ?_, fun c hc => ?_⟩
  · exact isContinuation_iff.mp (List.mem_takeWhile_imp hc)
  · have hstop := List.head?_dropWhile_not isContinuation bytes
    rw [hc] at hstop
    rw [← isContinuation_iff, hstop]
    exact Bool.false_ne_true

namespace Consumes

variable {text rest : List UInt8} {u : TextUnit}

theorem units_eq (h : Consumes text u rest) : units text = u :: units rest := by
  cases h with
  | lineFeed => simp [units]
  | carriageReturnLineFeed => simp [units]
  | tab => simp [units]
  | single hlf htab hpair hlow =>
    have hcr : ¬ (_ = (0x0D : UInt8) ∧ rest.head? = some 0x0A) := fun hb => hpair hb.1 hb.2
    rw [units, if_neg hlf, if_neg hcr, if_neg htab, continuationLength_of_low hlow, List.drop_zero]
  | @lead b tail _ hhigh hinside houtside =>
    have hne (c : UInt8) (hc : c < 0xC0) : b ≠ c := by
      rintro rfl
      exact UInt8.not_le.mpr hc hhigh
    rw [units, if_neg (hne 0x0A (by decide)), if_neg fun hb => hne 0x0D (by decide) hb.1,
      if_neg (hne 0x09 (by decide)), continuationLength_append hhigh hinside houtside,
      List.drop_left]

theorem length_eq (h : Consumes text u rest) : text.length = u.size + rest.length := by
  cases h <;> simp [TextUnit.size] <;> omega

theorem drop_eq (h : Consumes text u rest) : text.drop u.size = rest := by
  cases h <;> simp [TextUnit.size]

theorem unique {v : TextUnit} {rest' : List UInt8} (h : Consumes text u rest)
    (h' : Consumes text v rest') : u = v ∧ rest = rest' := by
  have hu : u = v := (List.cons.inj (h.units_eq.symm.trans h'.units_eq)).1
  subst hu
  exact ⟨rfl, h.drop_eq.symm.trans h'.drop_eq⟩

theorem exists_of_cons (b : UInt8) (bytes : List UInt8) :
    ∃ u rest, Consumes (b :: bytes) u rest := by
  by_cases hlf : b = 0x0A
  · subst hlf
    exact ⟨_, _, .lineFeed bytes⟩
  by_cases htab : b = 0x09
  · subst htab
    exact ⟨_, _, .tab bytes⟩
  by_cases hpair : b = 0x0D ∧ bytes.head? = some 0x0A
  · obtain ⟨rfl, hhead⟩ := hpair
    obtain ⟨rest, rfl⟩ := List.head?_eq_some_iff.mp hhead
    exact ⟨_, _, .carriageReturnLineFeed rest⟩
  by_cases hlow : b < 0xC0
  · exact ⟨_, _, .single hlf htab (fun hb hhead => hpair ⟨hb, hhead⟩) hlow⟩
  · obtain ⟨tail, rest, rfl, inside, outside⟩ := exists_continuation_split bytes
    exact ⟨_, _, .lead (UInt8.not_lt.mp hlow) inside outside⟩

end Consumes

theorem Boundary.place_unique {w : TabWidth} {start p q : Place} {text : List UInt8} {o : Nat}
    (hp : Boundary w start text o p) (hq : Boundary w start text o q) : p = q := by
  induction hp with
  | here =>
    generalize ho : 0 = o at hq
    cases hq with
    | here => rfl
    | @next _ _ _ _ u _ =>
      have := u.size_pos
      omega
  | @next _ _ _ _ u n hc _ ih =>
    generalize ho : u.size + n = o at hq
    cases hq with
    | here =>
      have := u.size_pos
      omega
    | next hc' hb =>
      obtain ⟨rfl, rfl⟩ := hc.unique hc'
      obtain rfl := Nat.add_left_cancel ho
      exact ih hb

/-- Induction on a text, unit by unit. -/
theorem unitInduction {P : List UInt8 → Prop} (nil : P [])
    (unit : ∀ text u rest, Consumes text u rest → P rest → P text) (text : List UInt8) : P text := by
  induction hn : text.length using Nat.strong_induction_on generalizing text with
  | _ n ih =>
    cases text with
    | nil => exact nil
    | cons b bytes =>
      obtain ⟨u, rest, h⟩ := Consumes.exists_of_cons b bytes
      refine unit _ u rest h (ih rest.length ?_ rest rfl)
      have := h.length_eq
      have := u.size_pos
      omega

end CursorState
