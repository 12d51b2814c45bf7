import Mathlib.Order.Bounds.Image
import CursorState.Proofs.Position.Boundary

/-! The byte offset of a target is the first unit boundary at or past it. -/
namespace CursorState

def reaching (w : TabWidth) (target : Point) (start : Place) (text : List UInt8) : Set Nat :=
  {o | ∃ p, Boundary w start text o p ∧ target.place ≤ p}

section
variable {w : TabWidth} {target : Point} {start : Place} {text rest : List UInt8} {u : TextUnit}

theorem isLeast_reaching_of_le (h : target.place ≤ start) :
    IsLeast (reaching w target start text) 0 :=
  ⟨⟨start, .here start text, h⟩, fun _ _ => Nat.zero_le _⟩

theorem reaching_nil (h : ¬ target.place ≤ start) : reaching w target start [] = ∅ := by
  rw [Set.eq_empty_iff_forall_notMem]
  rintro o ⟨p, hb, hp⟩
  cases hb with
  | here => exact h hp
  | next hc => cases hc

theorem reaching_of_consumes (h : ¬ target.place ≤ start) (hc : Consumes text u rest) :
    reaching w target start text =
      (u.size + ·) '' reaching w target (start.advance w u) rest := by
  ext o
  constructor
  · rintro ⟨p, hb, hp⟩
    cases hb with
    | here => exact absurd hp h
    | next hc' hb =>
      obtain ⟨rfl, rfl⟩ := hc.unique hc'
      exact ⟨_, ⟨p, hb, hp⟩, rfl⟩
  · rintro ⟨o, ⟨p, hb, hp⟩, rfl⟩
    exact ⟨p, .next hc hb, hp⟩

end

/-- Rows cannot run over, since a text has no more line ends than bytes. -/
theorem walk_isLeast_reaching {w : TabWidth} {target q : Point} {start : Place} {text : List UInt8}
    (hq : q.Shows start) (hrows : start.row + text.length < UInt32.size) :
    IsLeast (reaching w target start text) (walk w target q (units text)) ∨
      reaching w target start text = ∅ ∧ walk w target q (units text) = text.length := by
  -- unit by unit: each leaves fewer bytes, by one at least for the row that it may lead on
  induction text using unitInduction generalizing q start with
  | nil =>
    rw [units, walk]
    by_cases h : target.place ≤ start
    · exact .inl (isLeast_reaching_of_le h)
    · exact .inr ⟨reaching_nil h, rfl⟩
  | unit text u rest hc ih =>
    have hlen := hc.length_eq
    by_cases h : target.place ≤ start
    · rw [walk_of_le ((hq.le_iff target).mpr h)]
      exact .inl (isLeast_reaching_of_le h)
    · have hnext := hq.advance w u (by omega)
      have hrow := start.row_advance_le w u
      rw [hc.units_eq, walk_cons (fun hle => h ((hq.le_iff target).mp hle)),
        reaching_of_consumes h hc, hlen]
      rcases ih hnext (by omega) with hleast | ⟨hempty, hend⟩
      · have hmono : Monotone (u.size + ·) := fun _ _ hab => Nat.add_le_add_left hab _
        exact .inl (hmono.map_isLeast hleast)
      · exact .inr ⟨by rw [hempty, Set.image_empty], by rw [hend]⟩

/-- Each boundary has one place, in natural numbers. The walk in words finds the first boundary
whose place is at or past the target, and the end of the text if there is none. -/
theorem byteOffset_isLeast_reaching (text : List UInt8) (target : Point) (w : TabWidth)
    (h : text.length < UInt32.size) :
    (∀ o p q, Boundary w .origin text o p → Boundary w .origin text o q → p = q) ∧
      (IsLeast (reaching w target .origin text) (byteOffset text target w) ∨
        reaching w target .origin text = ∅ ∧ byteOffset text target w = text.length) := by
  have hrows : Place.origin.row + text.length < UInt32.size := by
    rwa [Place.origin, Nat.zero_add]
  exact ⟨fun _ _ _ => Boundary.place_unique, walk_isLeast_reaching .origin hrows⟩

/-- A tab, a truncated character, a line end and a stray continuation byte. -/
theorem byteOffset_isLeast_reaching_mixed :
    [0x61, 0x09, 0xE2, 0x82, 0x0D, 0x0A, 0x80].length < UInt32.size ∧
      (IsLeast (reaching .standard ⟨0, 5⟩ .origin [0x61, 0x09, 0xE2, 0x82, 0x0D, 0x0A, 0x80])
          (byteOffset [0x61, 0x09, 0xE2, 0x82, 0x0D, 0x0A, 0x80] ⟨0, 5⟩ .standard) ∨
        reaching .standard ⟨0, 5⟩ .origin [0x61, 0x09, 0xE2, 0x82, 0x0D, 0x0A, 0x80] = ∅ ∧
          byteOffset [0x61, 0x09, 0xE2, 0x82, 0x0D, 0x0A, 0x80] ⟨0, 5⟩ .standard =
            [0x61, 0x09, 0xE2, 0x82, 0x0D, 0x0A, 0x80].length) :=
  ⟨by decide, (byteOffset_isLeast_reaching _ _ _ (by decide)).2⟩

end CursorState
