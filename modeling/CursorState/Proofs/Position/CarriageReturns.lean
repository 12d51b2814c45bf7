import CursorState.Proofs.Position.Passed

/-! The other form of line ends: a carriage return before each line feed makes line ends longer and
changes nothing else, so an offset grows by the line ends before it. -/
namespace CursorState

def withCarriageReturns (text : List UInt8) : List UInt8 :=
  text.flatMap fun b => if b = 0x0A then [0x0D, b] else [b]

section
variable (rest : List UInt8)

@[simp] theorem withCarriageReturns_nil : withCarriageReturns [] = [] := rfl

@[simp] theorem withCarriageReturns_lineFeed :
    withCarriageReturns (0x0A :: rest) = 0x0D :: 0x0A :: withCarriageReturns rest := rfl

theorem withCarriageReturns_cons {b : UInt8} (h : b ≠ 0x0A) :
    withCarriageReturns (b :: rest) = b :: withCarriageReturns rest := by
  simp [withCarriageReturns, h]

theorem withCarriageReturns_append {a : List UInt8} (h : 0x0A ∉ a) :
    withCarriageReturns (a ++ rest) = a ++ withCarriageReturns rest := by
  induction a with
  | nil => rfl
  | cons b a ih =>
    obtain ⟨hb, ha⟩ := List.ne_and_not_mem_of_not_mem_cons h
    rw [List.cons_append, withCarriageReturns_cons _ hb.symm, ih ha, List.cons_append]

end

theorem length_withCarriageReturns (text : List UInt8) :
    (withCarriageReturns text).length = text.length + text.count 0x0A := by
  induction text with
  | nil => rfl
  | cons b rest ih =>
    by_cases hb : b = 0x0A
    · subst hb
      simp [ih]
      omega
    · rw [withCarriageReturns_cons rest hb, List.count_cons_of_ne hb, List.length_cons, ih]
      simp
      omega

theorem eq_or_mem_head?_withCarriageReturns (text : List UInt8) :
    ∀ c ∈ (withCarriageReturns text).head?, c = 0x0D ∨ c ∈ text.head? := by
  intro c hc
  cases text with
  | nil => cases hc
  | cons b rest =>
    by_cases hb : b = 0x0A
    · subst hb
      exact .inl (Option.some.inj hc).symm
    · rw [withCarriageReturns_cons rest hb] at hc
      exact .inr hc

/-- A line feed becomes a line end of two bytes. -/
def TextUnit.withCarriageReturn : TextUnit → TextUnit
  | .lineFeed => .carriageReturnLineFeed
  | .carriageReturnLineFeed => .carriageReturnLineFeed
  | .tab => .tab
  | .character continuation => .character continuation

theorem Place.advance_withCarriageReturn (p : Place) (w : TabWidth) (u : TextUnit) :
    p.advance w u.withCarriageReturn = p.advance w u := by
  cases u <;> rfl

/-- Without a carriage return in the text no line feed is the second half of a line end already. -/
theorem Consumes.withCarriageReturns {text rest : List UInt8} {u : TextUnit}
    (h : Consumes text u rest) (hcr : 0x0D ∉ text) :
    Consumes (withCarriageReturns text) u.withCarriageReturn (withCarriageReturns rest) := by
  cases h with
  | lineFeed => exact .carriageReturnLineFeed _
  | carriageReturnLineFeed => exact absurd (List.mem_cons_self ..) hcr
  | tab => exact .tab _
  | @single b _ hlf htab hpair hlow =>
    rw [withCarriageReturns_cons rest hlf]
    refine .single hlf htab (fun hb => ?_) hlow
    exact absurd (hb ▸ List.mem_cons_self ..) hcr
  | @lead b tail _ hhigh hinside houtside =>
    have hlf := lineFeed_notMem_lead hhigh hinside
    rw [← List.cons_append, withCarriageReturns_append rest hlf]
    refine .lead hhigh hinside fun c hc => ?_
    obtain rfl | hmem := eq_or_mem_head?_withCarriageReturns rest c hc
    · decide
    · exact houtside c hmem

theorem units_withCarriageReturns {text : List UInt8} (hcr : 0x0D ∉ text) :
    units (withCarriageReturns text) = (units text).map TextUnit.withCarriageReturn := by
  induction text using unitInduction with
  | nil => simp [units]
  | unit text u rest hc ih =>
    have hrest : 0x0D ∉ rest := fun hmem => hcr (List.mem_of_mem_drop (hc.drop_eq ▸ hmem))
    rw [(hc.withCarriageReturns hcr).units_eq, hc.units_eq, List.map_cons, ih hrest]

theorem passed_map_withCarriageReturn (w : TabWidth) (target p : Place) (us : List TextUnit) :
    passed w target p (us.map TextUnit.withCarriageReturn) =
      (passed w target p us).map TextUnit.withCarriageReturn :=
  passed_map (g := id) (fun _ => Iff.rfl) (fun p u _ => p.advance_withCarriageReturn w u) p

/-- With a carriage return before each line feed, the offset of a target is larger by the number of
line feeds before it. -/
theorem byteOffset_withCarriageReturns {text : List UInt8} (target : Point) (w : TabWidth)
    (hcr : 0x0D ∉ text) (hlength : (withCarriageReturns text).length < UInt32.size) :
    byteOffset (withCarriageReturns text) target w =
      byteOffset text target w + (text.take (byteOffset text target w)).count 0x0A := by
  have htext : text.length < UInt32.size :=
    Nat.lt_of_le_of_lt (by rw [length_withCarriageReturns]; exact Nat.le_add_right _ _) hlength
  have hbefore : 0x0D ∉ text.take (byteOffset text target w) := fun hmem =>
    hcr (List.mem_of_mem_take hmem)
  calc
    byteOffset (withCarriageReturns text) target w
      = unitsSize (passed w target.place .origin (units (withCarriageReturns text))) :=
        byteOffset_eq_unitsSize_passed target w hlength
    _ = unitsSize ((passed w target.place .origin (units text)).map
          TextUnit.withCarriageReturn) := by
        rw [units_withCarriageReturns hcr, passed_map_withCarriageReturn]
    _ = unitsSize (units (withCarriageReturns (text.take (byteOffset text target w)))) := by
        rw [← units_take_byteOffset target w htext, units_withCarriageReturns hbefore]
    _ = byteOffset text target w + (text.take (byteOffset text target w)).count 0x0A := by
        rw [unitsSize_units, length_withCarriageReturns,
          List.length_take_of_le (byteOffset_le_length text target w)]

/-- A truncated character stands before a line end, and the target lies past the end of its line. -/
theorem byteOffset_withCarriageReturns_mixed :
    let text : List UInt8 := [0x61, 0x0A, 0x09, 0xE2, 0x82, 0x0A, 0x80, 0x0A]
    0x0D ∉ text ∧ (withCarriageReturns text).length < UInt32.size ∧
      byteOffset text ⟨1, 9⟩ .standard = 6 ∧
      byteOffset (withCarriageReturns text) ⟨1, 9⟩ .standard = 8 := by
  intro text
  have hcr : 0x0D ∉ text := by decide
  have hlength : (withCarriageReturns text).length < UInt32.size := by decide
  have hunits : units text = [.character 0, .lineFeed, .tab, .character 1, .lineFeed,
      .character 0, .lineFeed] := by
    simp [text, units, continuationLength, isContinuation_iff]
  have hoffset : byteOffset text ⟨1, 9⟩ .standard = 6 := by
    rw [byteOffset, hunits]
    decide
  refine ⟨hcr, hlength, hoffset, ?_⟩
  rw [byteOffset_withCarriageReturns ⟨1, 9⟩ .standard hcr hlength, hoffset]
  decide

end CursorState
