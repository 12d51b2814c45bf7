import CursorState.Proofs.Text.EncodedChar
import CursorState.Proofs.Text.Lines

/-! The lines of a text by a cursor that counts bytes. Each pass looks for the first break, cuts the
text before it and behind it, and leaves the rest to the next pass. A break has a byte at least, so
each pass leaves less than it found, and the passes come to an end. -/
namespace CursorState.Text

variable {line brk rest left : List Char} {c : Char}

/-- Cut a text at byte `n`. This cannot be done inside a character, or beyond the end. -/
def cutAt : Nat → List Char → Option (List Char × List Char)
  | 0, cs => some ([], cs)
  | _ + 1, [] => none
  | n + 1, c :: cs =>
    if c.utf8Size ≤ n + 1 then
      (cutAt (n + 1 - c.utf8Size) cs).map fun (before, rest) => (c :: before, rest)
    else none

/-- The characters of a text, and the bytes at which they start if the first starts at `start`. -/
def charIndices : Nat → List Char → List (Nat × Char)
  | _, [] => []
  | start, c :: cs => (start, c) :: charIndices (start + c.utf8Size) cs

def firstBreak? (cs : List Char) : Option (Nat × Char) :=
  (charIndices 0 cs).find? fun entry => isLineBreak entry.2

/-- One pass: the first line, and what is left behind its break. -/
def nextLine (rest : List Char) : Option (List Char × List Char) :=
  match firstBreak? rest with
  | none => some (rest, [])
  | some (stop, c) => do
    let (line, ended) ← cutAt stop rest
    let width := if ['\r', '\n'].isPrefixOf ended then 2 else c.utf8Size
    let (_, left) ← cutAt width ended
    return (line, left)

theorem length_encode_cons (c : Char) (cs : List Char) :
    (encode (c :: cs)).length = c.utf8Size + (encode cs).length := by
  rw [encode_cons, List.length_append, String.length_utf8EncodeChar]

theorem cutAt_eq_some_iff {n : Nat} {cs before rest : List Char} :
    cutAt n cs = some (before, rest) ↔ cs = before ++ rest ∧ (encode before).length = n := by
  constructor
  · intro h
    fun_induction cutAt n cs generalizing before with
    | case1 cs =>
      obtain ⟨rfl, rfl⟩ := Prod.mk.inj (Option.some.inj h)
      exact ⟨rfl, rfl⟩
    | case2 => cases h
    | case3 n c cs hle ih =>
      obtain ⟨⟨before', rest'⟩, hcut, heq⟩ := Option.map_eq_some_iff.mp h
      obtain ⟨rfl, rfl⟩ := Prod.mk.inj heq
      obtain ⟨rfl, hlength⟩ := ih hcut
      refine ⟨rfl, ?_⟩
      rw [length_encode_cons, hlength, Nat.add_sub_cancel' hle]
    | case4 => cases h
  · rintro ⟨rfl, rfl⟩
    induction before with
    | nil => cases rest <;> rfl
    | cons c before ih =>
      obtain ⟨n, hn⟩ : ∃ n, (encode (c :: before)).length = n + 1 := by
        refine ⟨c.utf8Size - 1 + (encode before).length, ?_⟩
        have := c.utf8Size_pos
        rw [length_encode_cons]
        omega
      have hsize := length_encode_cons c before
      rw [hn] at hsize
      rw [hn, List.cons_append, cutAt, if_pos (by omega), hsize, Nat.add_sub_cancel_left, ih]
      rfl

theorem cutAt_append (before rest : List Char) :
    cutAt (encode before).length (before ++ rest) = some (before, rest) :=
  cutAt_eq_some_iff.mpr ⟨rfl, rfl⟩

theorem firstBreak?_of_unbroken (h : Unbroken line) : firstBreak? line = none := by
  have hnone (start : Nat) :
      (charIndices start line).find? (fun entry => isLineBreak entry.2) = none := by
    induction line generalizing start with
    | nil => rfl
    | cons c cs ih =>
      obtain ⟨hc, hcs⟩ := List.forall_mem_cons.mp h
      rw [charIndices, List.find?_cons_of_neg (by simpa using hc)]
      exact ih hcs _
  exact hnone 0

theorem firstBreak?_append (h : Unbroken line) (hc : isLineBreak c) (rest : List Char) :
    firstBreak? (line ++ c :: rest) = some ((encode line).length, c) := by
  have hsome (start : Nat) :
      (charIndices start (line ++ c :: rest)).find? (fun entry => isLineBreak entry.2) =
        some (start + (encode line).length, c) := by
    induction line generalizing start with
    | nil => exact List.find?_cons_of_pos hc
    | cons d ds ih =>
      obtain ⟨hd, hds⟩ := List.forall_mem_cons.mp h
      rw [List.cons_append, charIndices, List.find?_cons_of_neg (by simpa using hd), ih hds,
        length_encode_cons, Nat.add_assoc]
  rw [firstBreak?, hsome, Nat.zero_add]

/-- A break is as wide as its bytes. Where a line feed follows a carriage return, there is no break
but the pair. -/
theorem exists_width (hbreak : brk ∈ lineBreaks) (hseam : brk = ['\r'] → rest.head? ≠ some '\n') :
    ∃ c cs, brk = c :: cs ∧ isLineBreak c ∧
      (if ['\r', '\n'].isPrefixOf (brk ++ rest) then 2 else c.utf8Size) = (encode brk).length := by
  rcases mem_lineBreaks_iff.mp hbreak with rfl | ⟨c, hc, rfl⟩
  · exact ⟨'\r', ['\n'], rfl, by decide, rfl⟩
  · refine ⟨c, [], rfl, hc, ?_⟩
    have hpair : ¬ ['\r', '\n'].isPrefixOf ([c] ++ rest) := by
      rw [List.isPrefixOf_iff_prefix, List.singleton_append, List.cons_prefix_cons]
      rintro ⟨rfl, left, rfl⟩
      exact hseam rfl rfl
    rw [if_neg hpair, length_encode_cons]
    rfl

theorem nextLine_of_unbroken (h : Unbroken line) : nextLine line = some (line, []) := by
  rw [nextLine, firstBreak?_of_unbroken h]

theorem nextLine_line (hline : Unbroken line) (hbreak : brk ∈ lineBreaks)
    (hseam : brk = ['\r'] → rest.head? ≠ some '\n') :
    nextLine (line ++ brk ++ rest) = some (line, rest) := by
  obtain ⟨c, cs, hbrk, hc, hwidth⟩ := exists_width hbreak hseam
  have hfirst : firstBreak? (line ++ brk ++ rest) = some ((encode line).length, c) := by
    rw [hbrk, List.append_assoc]
    exact firstBreak?_append hline hc _
  rw [nextLine, hfirst, List.append_assoc]
  simp only [cutAt_append, hwidth, Option.bind_eq_bind, Option.bind_some, Option.pure_def]

theorem nextLine_length (h : nextLine rest = some (line, left)) (hne : rest ≠ []) :
    left.length < rest.length := by
  unfold nextLine at h
  split at h
  · obtain ⟨-, rfl⟩ := Prod.mk.inj (Option.some.inj h)
    exact List.length_pos_iff.mpr hne
  · next stop c _ =>
    simp only [Option.bind_eq_bind, Option.bind_eq_some_iff, Prod.exists, Option.pure_def,
      Option.some.injEq, Prod.mk.injEq] at h
    obtain ⟨line', ended, hline, brk, left', hbreak, rfl, rfl⟩ := h
    obtain ⟨rfl, -⟩ := cutAt_eq_some_iff.mp hline
    obtain ⟨rfl, hwidth⟩ := cutAt_eq_some_iff.mp hbreak
    have hpos : 0 < (encode brk).length := by
      rw [hwidth]
      split
      · exact Nat.two_pos
      · exact c.utf8Size_pos
    have hbrk : 0 < brk.length := by
      rw [List.length_pos_iff]
      rintro rfl
      exact absurd hpos (Nat.lt_irrefl 0)
    rw [List.length_append, List.length_append]
    omega

def linesByByte (rest : List Char) : Option (List (List Char)) :=
  if rest = [] then some []
  else
    match _ : nextLine rest with
    | none => none
    | some (line, left) => (linesByByte left).map (line :: ·)
  termination_by rest.length
  decreasing_by exact nextLine_length ‹_› ‹_›

theorem linesByByte_nil : linesByByte [] = some [] := by
  rw [linesByByte, if_pos rfl]

theorem linesByByte_of_nextLine (hne : rest ≠ []) (h : nextLine rest = some (line, left)) :
    linesByByte rest = (linesByByte left).map (line :: ·) := by
  rw [linesByByte, if_neg hne]
  split
  · next h' =>
    rw [h] at h'
    cases h'
  · next h' =>
    rw [h] at h'
    obtain ⟨rfl, rfl⟩ := Prod.mk.inj (Option.some.inj h')
    rfl

end CursorState.Text
