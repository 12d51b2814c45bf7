import CursorState.Proofs.Position.FirstBoundary
import CursorState.Proofs.Text.EncodedChar

/-! A walk over characters. On the bytes of a text the walk over units comes as far. -/
namespace CursorState
open Text

/-- Where a character leads from `p`, unless it is the first half of a line end. -/
def Place.afterChar (w : TabWidth) (p : Place) (c : Char) : Place :=
  if c = '\n' then ⟨p.row + 1, 0⟩
  else if c = '\t' then ⟨p.row, w.stopAfter p.column⟩
  else ⟨p.row, p.column + 1⟩

/-- The characters before the first unit that starts at or past `target`, from `p` on. A unit is one
character, or a carriage return and a line feed. -/
def charsBefore (w : TabWidth) (target : Place) : Place → List Char → List Char
  | _, [] => []
  | p, [c] => if target ≤ p then [] else [c]
  | p, c :: d :: cs =>
    if target ≤ p then []
    else if c = '\r' ∧ d = '\n' then c :: d :: charsBefore w target ⟨p.row + 1, 0⟩ cs
    else c :: charsBefore w target (p.afterChar w c) (d :: cs)

theorem charsBefore_prefix (w : TabWidth) (target p : Place) (cs : List Char) :
    charsBefore w target p cs <+: cs := by
  fun_induction charsBefore w target p cs with
  | case1 => exact List.nil_prefix
  | case2 => exact List.nil_prefix
  | case3 => exact List.prefix_refl _
  | case4 => exact List.nil_prefix
  | case5 p c d cs _ _ ih => exact List.prefix_cons_inj c |>.mpr (List.prefix_cons_inj d |>.mpr ih)
  | case6 p c d cs _ _ ih => exact List.prefix_cons_inj c |>.mpr ih

theorem consumes_encode_cons (c : Char) (cs : List Char)
    (hpair : ¬ (c = '\r' ∧ cs.head? = some '\n')) :
    ∃ u, Consumes (encode (c :: cs)) u (encode cs) ∧
      ∀ (w : TabWidth) (p : Place), p.advance w u = p.afterChar w c := by
  by_cases hlf : c = '\n'
  · subst hlf
    exact ⟨_, .lineFeed _, fun _ _ => rfl⟩
  by_cases htab : c = '\t'
  · subst htab
    exact ⟨_, .tab _, fun _ _ => rfl⟩
  have hafter (w : TabWidth) (p : Place) : p.afterChar w c = ⟨p.row, p.column + 1⟩ := by
    rw [Place.afterChar, if_neg hlf, if_neg htab]
  rw [encode_cons]
  generalize hbytes : String.utf8EncodeChar c = bytes
  cases hbytes ▸ encodedAs c with
  | ascii low =>
    refine ⟨.character 0, .single (fun h => ?_) (fun h => ?_) (fun h hhead => ?_) ?_,
      fun w p => (hafter w p).symm⟩
    · exact hlf (eq_of_ofNat_eq (d := '\n') low (by decide) h)
    · exact htab (eq_of_ofNat_eq (d := '\t') low (by decide) h)
    · exact hpair ⟨eq_of_ofNat_eq (d := '\r') low (by decide) h, head?_eq_lineFeed hhead⟩
    · rw [UInt8.lt_iff_toNat_lt, toNat_ofNat_low low]
      exact Nat.lt_trans low (by decide)
  | @lead b tail high inside =>
    exact ⟨.character tail.length, .lead high inside (head?_encode cs), fun w p => (hafter w p).symm⟩

section
variable {w : TabWidth} {target q : Point} {p : Place}

theorem walk_of_consumes {text rest : List UInt8} {u : TextUnit} (hq : q.Shows p)
    (h : ¬ target.place ≤ p) (hc : Consumes text u rest) :
    walk w target q (units text) = u.size + walk w target (q.advance w u) (units rest) := by
  rw [hc.units_eq, walk_cons fun hle => h ((hq.le_iff target).mp hle)]

/-- Unit by unit the two walks stop at the same place, and what they pass has the same length. -/
theorem walk_encode {cs : List Char} (hq : q.Shows p)
    (hrows : p.row + (encode cs).length < UInt32.size) :
    walk w target q (units (encode cs)) = (encode (charsBefore w target.place p cs)).length := by
  fun_induction charsBefore w target.place p cs generalizing q with
  | case1 => simp [encode, units, walk]
  | case2 p c h => exact walk_of_le ((hq.le_iff target).mpr h) _
  | case3 p c h =>
    obtain ⟨u, hc, -⟩ := consumes_encode_cons c [] (by simp)
    rw [walk_of_consumes hq h hc, hc.length_eq]
    simp [encode, units, walk]
  | case4 p c d cs h => exact walk_of_le ((hq.le_iff target).mpr h) _
  | case5 p c d cs h hpair ih =>
    -- the two characters are one unit
    obtain ⟨rfl, rfl⟩ := hpair
    have hc : Consumes (encode ('\r' :: '\n' :: cs)) _ (encode cs) :=
      .carriageReturnLineFeed (encode cs)
    have hlen := hc.length_eq
    have hbytes (ds : List Char) : (encode ('\r' :: '\n' :: ds)).length = 2 + (encode ds).length :=
      Nat.add_comm _ 2
    rw [hbytes] at hlen hrows
    rw [walk_of_consumes hq h hc, ih (hq.advance w _ (by omega)) (by simp only; omega), hbytes]
    rfl
  | case6 p c d cs h hpair ih =>
    obtain ⟨u, hc, hadvance⟩ := consumes_encode_cons c (d :: cs) (by simpa using hpair)
    have hlen := hc.length_eq
    have hrow := p.row_advance_le w u
    have hnext := hq.advance w u (by omega)
    rw [hadvance] at hrow hnext
    rw [walk_of_consumes hq h hc, ih hnext (by omega), encode_cons, List.length_append]
    rw [encode_cons, List.length_append] at hlen
    omega

end

theorem Consumes.not_within_pair {text rest : List UInt8} {u : TextUnit} (h : Consumes text u rest)
    (hlast : text[u.size - 1]? = some 0x0D) : rest.head? ≠ some 0x0A := by
  cases h with
  | lineFeed => exact absurd (Option.some.inj hlast) (by decide)
  | carriageReturnLineFeed => exact absurd (Option.some.inj hlast) (by decide)
  | tab => exact absurd (Option.some.inj hlast) (by decide)
  | single _ _ hpair => exact hpair (Option.some.inj hlast)
  | @lead b tail _ hhigh hinside =>
    rw [TextUnit.size, Nat.add_sub_cancel, ← List.cons_append,
      List.getElem?_append_left (Nat.lt_succ_self _)] at hlast
    have hmem := List.mem_of_getElem? hlast
    exact absurd (le_of_mem_lead hhigh hinside _ hmem) (by decide)

theorem Boundary.not_within_pair {w : TabWidth} {start p : Place} {text a b : List UInt8} {o : Nat}
    (h : Boundary w start text o p) (htext : text = a ++ 0x0D :: 0x0A :: b) :
    o ≠ a.length + 1 := by
  induction h generalizing a with
  | here => exact Nat.zero_ne_add_one a.length
  | @next start p text rest u o hc _ ih =>
    intro heq
    have hrest := hc.drop_eq
    subst htext
    by_cases hle : u.size ≤ a.length
    · rw [List.drop_append_of_le_length hle] at hrest
      have := ih hrest.symm
      rw [List.length_drop] at this
      omega
    · have hsize : u.size = a.length + 1 := by omega
      rw [hsize, List.append_cons, List.drop_left' (by simp)] at hrest
      refine hc.not_within_pair ?_ (congrArg List.head? hrest.symm)
      rw [hsize, Nat.add_sub_cancel]
      simp

theorem byteOffset_not_within_pair {a b : List UInt8} (target : Point) (w : TabWidth)
    (h : (a ++ 0x0D :: 0x0A :: b).length < UInt32.size) :
    byteOffset (a ++ 0x0D :: 0x0A :: b) target w ≠ a.length + 1 := by
  have hrows : Place.origin.row + (a ++ 0x0D :: 0x0A :: b).length < UInt32.size := by
    rwa [Place.origin, Nat.zero_add]
  rcases @walk_isLeast_reaching w target _ _ _ .origin hrows with hleast | ⟨-, hend⟩
  · obtain ⟨p, hb, -⟩ := hleast.1
    exact hb.not_within_pair rfl
  · rw [byteOffset, hend]
    simp

/-- On the bytes of a text, the offset of a target is where the walk over its characters stops. So it
stands between two characters and not inside a line end, and the bytes before it are a text. -/
theorem byteOffset_encode (s : List Char) (target : Point) (w : TabWidth)
    (h : (encode s).length < UInt32.size) :
    let selected := charsBefore w target.place .origin s
    let offset := byteOffset (encode s) target w
    offset = (encode selected).length ∧
      (∃ rest, s = selected ++ rest ∧ (encode s).take offset = encode selected ∧
        (encode s).drop offset = encode rest) ∧
      ((encode s).take offset).toByteArray.IsValidUTF8 ∧
      ∀ a b, encode s = a ++ 0x0D :: 0x0A :: b → offset ≠ a.length + 1 := by
  intro selected offset
  have hoffset : offset = (encode selected).length := by
    refine walk_encode .origin ?_
    rwa [Place.origin, Nat.zero_add]
  obtain ⟨rest, hrest⟩ := charsBefore_prefix w target.place .origin s
  have hbytes : encode s = encode selected ++ encode rest := by
    rw [← hrest, encode_append]
  have htake : (encode s).take offset = encode selected := by
    rw [hoffset, hbytes, List.take_left]
  have hdrop : (encode s).drop offset = encode rest := by
    rw [hoffset, hbytes, List.drop_left]
  refine ⟨hoffset, ⟨rest, hrest.symm, htake, hdrop⟩, ?_, fun a b hab => ?_⟩
  · rw [htake]
    exact ByteArray.isValidUTF8_utf8Encode
  · rw [hab] at h
    have hpair := byteOffset_not_within_pair target w h
    rwa [← hab] at hpair

/-- A tab, characters of one to four bytes and a line end of two characters. -/
theorem byteOffset_encode_mixed :
    (encode ['a', '\t', 'é', '\r', '\n', '€', '😀']).length < UInt32.size ∧
      byteOffset (encode ['a', '\t', 'é', '\r', '\n', '€', '😀']) ⟨1, 1⟩ .standard =
        (encode ['a', '\t', 'é', '\r', '\n', '€']).length := by
  have hselected : charsBefore .standard (Point.place ⟨1, 1⟩) .origin
      ['a', '\t', 'é', '\r', '\n', '€', '😀'] = ['a', '\t', 'é', '\r', '\n', '€'] := by decide
  have hlength : (encode ['a', '\t', 'é', '\r', '\n', '€', '😀']).length < UInt32.size := by decide
  refine ⟨hlength, ?_⟩
  have h := (byteOffset_encode _ ⟨1, 1⟩ .standard hlength).1
  rwa [hselected] at h

end CursorState
