import Mathlib.Data.List.DropRight
import CursorState.Proofs.Json.Scalars

/-! Every text of the grammar is read, and to the value that it stands for. -/
namespace CursorState.Json
open Text

/-! White space -/

theorem isSpace_iff {c : Char} : isSpace c ↔ c ∈ [' ', '\t', '\n', '\r'] := by
  simp only [isSpace, Bool.or_eq_true, beq_iff_eq, List.mem_cons, List.not_mem_nil, or_false]
  tauto

theorem skipSpace_append {space : List Char} (h : Spaces space) (cs : List Char) :
    skipSpace (space ++ cs) = skipSpace cs :=
  List.dropWhile_append_of_pos fun c hc => isSpace_iff.mpr (h c hc)

theorem skipSpace_cons {c : Char} (h : isSpace c = false) (cs : List Char) :
    skipSpace (c :: cs) = c :: cs := by
  rw [skipSpace, List.dropWhile_cons, h]
  rfl

theorem skipSpace_skipSpace (cs : List Char) : skipSpace (skipSpace cs) = skipSpace cs :=
  List.dropWhile_idempotent isSpace cs

theorem readValue_skipSpace (fuel : Nat) (cs : List Char) :
    readValue fuel (skipSpace cs) = readValue fuel cs := by
  cases fuel with
  | zero => rw [readValue, readValue]
  | succ fuel => rw [readValue, readValue, skipSpace_skipSpace]

theorem readElements_skipSpace (fuel : Nat) (cs : List Char) :
    readElements fuel (skipSpace cs) = readElements fuel cs := by
  cases fuel with
  | zero => rw [readElements, readElements]
  | succ fuel => rw [readElements, readElements, readValue_skipSpace]

theorem readMembers_skipSpace (fuel : Nat) (cs : List Char) :
    readMembers fuel (skipSpace cs) = readMembers fuel cs := by
  cases fuel with
  | zero => rw [readMembers, readMembers]
  | succ fuel => rw [readMembers, readMembers, skipSpace_skipSpace]

theorem Spaces.numberEnd {space rest : List Char} (h : Spaces space)
    (hrest : ∀ c ∈ rest.head?, c ∈ [',', ']', '}']) : NumberEnd (space ++ rest) := by
  have hend : ∀ c ∈ [' ', '\t', '\n', '\r'] ++ [',', ']', '}'],
      isAsciiDigit c = false ∧ c ∉ ['.', 'e', 'E'] := by simp [isAsciiDigit]
  have hhead : ∀ c ∈ (space ++ rest).head?, c ∈ [' ', '\t', '\n', '\r'] ++ [',', ']', '}'] := by
    intro c hc
    cases space with
    | nil => exact List.mem_append_right _ (hrest c hc)
    | cons d space =>
      cases hc
      exact List.mem_append_left _ (h c List.mem_cons_self)
  exact ⟨fun c hc => (hend c (hhead c hc)).1, fun c hc => (hend c (hhead c hc)).2⟩

/-! Values -/

theorem NumberText.exists_head {cs : List Char} {token : NumberToken} (h : NumberText cs token) :
    ∃ c tail, cs = c :: tail ∧ (c = '-' ∨ isAsciiDigit c) := by
  obtain ⟨hint, -, -⟩ := h
  obtain ⟨d, ds, hdigits⟩ := List.exists_cons_of_ne_nil hint.1.1
  have hd := hint.1.2 d (hdigits ▸ List.mem_cons_self)
  by_cases hsign : token.negative
  · exact ⟨'-', _, by rw [if_pos hsign]; rfl, .inl rfl⟩
  · exact ⟨d, _, by rw [if_neg hsign, hdigits]; rfl, .inr hd⟩

theorem readValue_number {cs rest : List Char} {token : NumberToken} (fuel : Nat)
    (h : NumberText cs token) (hrest : NumberEnd rest) :
    readValue (fuel + 1) (cs ++ rest) = some (.number token, rest) := by
  have hread := readNumber_append h hrest
  obtain ⟨c, tail, rfl, hc⟩ := h.exists_head
  have hspace : isSpace c = false := by
    rw [Bool.eq_false_iff, ne_eq, isSpace_iff]
    intro hmem
    have hall : ∀ c ∈ [' ', '\t', '\n', '\r'], ¬(c = '-' ∨ isAsciiDigit c) := by
      simp [isAsciiDigit]
    exact hall c hmem hc
  rw [readValue, List.cons_append, skipSpace_cons hspace]
  split
  case h_8 =>
    rw [← List.cons_append, hread]
    rfl
  case h_1 heq => cases heq
  all_goals
    next heq =>
      obtain rfl := (List.cons.inj heq).1
      exact absurd hc (by decide)

theorem readValue_string {cs : List Char} {s : String} (fuel : Nat) (h : StringText cs s)
    (rest : List Char) : readValue (fuel + 1) (cs ++ rest) = some (.string s, rest) := by
  obtain ⟨h⟩ := h
  rename_i inner
  have hstring := readString_append h rest
  rw [readValue, List.append_assoc, List.cons_append, skipSpace_cons (by decide)]
  show Option.map _ (readString (inner ++ '"' :: rest)) = _
  rw [hstring]
  simp

theorem readElements_bracket (fuel : Nat) (cs : List Char) :
    readElements fuel (']' :: cs) = none := by
  rcases fuel with _ | _ | fuel
  · rw [readElements]
  · rw [readElements, readValue]
    rfl
  · rw [readElements, readValue]
    rfl

theorem readValue_array {fuel : Nat} {cs rest : List Char} {vs : List Value}
    (h : readElements fuel cs = some (vs, rest)) :
    readValue (fuel + 1) ('[' :: cs) = some (.array vs, rest) := by
  rw [← readElements_skipSpace] at h
  rw [readValue, skipSpace_cons (by decide)]
  simp only
  split
  · next heq =>
    rw [heq, readElements_bracket] at h
    cases h
  · rw [h]
    rfl

theorem readValue_emptyArray {space : List Char} (fuel : Nat) (hs : Spaces space)
    (rest : List Char) :
    readValue (fuel + 1) ('[' :: space ++ [']'] ++ rest) = some (.array [], rest) := by
  rw [readValue, List.append_assoc, List.cons_append, skipSpace_cons (by decide)]
  simp only [skipSpace_append hs]
  rfl

theorem readElements_last {fuel : Nat} {cs space rest : List Char} {v : Value}
    (hv : readValue fuel cs = some (v, space ++ ']' :: rest)) (hs : Spaces space) :
    readElements (fuel + 1) cs = some ([v], rest) := by
  rw [readElements, hv]
  simp only [Option.bind_eq_bind, Option.bind_some, skipSpace_append hs]
  rfl

theorem readElements_cons {fuel : Nat} {cs space tail rest : List Char} {v : Value}
    {vs : List Value} (hv : readValue fuel cs = some (v, space ++ ',' :: tail)) (hs : Spaces space)
    (hvs : readElements fuel tail = some (vs, rest)) :
    readElements (fuel + 1) cs = some (v :: vs, rest) := by
  rw [readElements, hv]
  simp only [Option.bind_eq_bind, Option.bind_some, skipSpace_append hs]
  show Option.map _ (readElements fuel tail) = _
  rw [hvs]
  rfl

theorem readMembers_brace (fuel : Nat) (cs : List Char) : readMembers fuel ('}' :: cs) = none := by
  cases fuel with
  | zero => rw [readMembers]
  | succ fuel =>
    rw [readMembers]
    rfl

theorem readValue_object {fuel : Nat} {cs rest : List Char} {ms : List (String × Value)}
    (h : readMembers fuel cs = some (ms, rest)) :
    readValue (fuel + 1) ('{' :: cs) = some (.object ms, rest) := by
  rw [← readMembers_skipSpace] at h
  rw [readValue, skipSpace_cons (by decide)]
  simp only
  split
  · next heq =>
    rw [heq, readMembers_brace] at h
    cases h
  · rw [h]
    rfl

theorem readValue_emptyObject {space : List Char} (fuel : Nat) (hs : Spaces space)
    (rest : List Char) :
    readValue (fuel + 1) ('{' :: space ++ ['}'] ++ rest) = some (.object [], rest) := by
  rw [readValue, List.append_assoc, List.cons_append, skipSpace_cons (by decide)]
  simp only [skipSpace_append hs]
  rfl

def readAfterMember (fuel : Nat) (entry : String × Value) (cs : List Char) :
    Option (List (String × Value) × List Char) :=
  match skipSpace cs with
  | '}' :: rest => some ([entry], rest)
  | ',' :: rest => (readMembers fuel rest).map fun (ms, rest) => (entry :: ms, rest)
  | _ => none

theorem readMembers_name {fuel : Nat} {name cs rest : List Char} {key : String} {v : Value}
    (hkey : MemberName name key) (hv : readValue fuel cs = some (v, rest)) :
    readMembers (fuel + 1) (name ++ cs) = readAfterMember fuel (key, v) rest := by
  obtain ⟨hbefore, ⟨hkey⟩, hafter⟩ := hkey
  rename_i before after inner
  have hstring := readString_append hkey (after ++ ':' :: cs)
  have hquote : isSpace '"' = false := by decide
  have hcolon : isSpace ':' = false := by decide
  simp only [readMembers, List.append_assoc, List.cons_append, List.nil_append,
    skipSpace_append hbefore, skipSpace_cons hquote, hstring, skipSpace_append hafter,
    skipSpace_cons hcolon, hv, Option.bind_eq_bind, Option.bind_some, String.ofList_toList]
  rfl

theorem readMembers_last {fuel : Nat} {name cs space rest : List Char} {key : String} {v : Value}
    (hkey : MemberName name key) (hv : readValue fuel cs = some (v, space ++ '}' :: rest))
    (hs : Spaces space) : readMembers (fuel + 1) (name ++ cs) = some ([(key, v)], rest) := by
  rw [readMembers_name hkey hv, readAfterMember, skipSpace_append hs]
  rfl

theorem readMembers_cons {fuel : Nat} {name cs space tail rest : List Char} {key : String}
    {v : Value} {ms : List (String × Value)} (hkey : MemberName name key)
    (hv : readValue fuel cs = some (v, space ++ ',' :: tail)) (hs : Spaces space)
    (hms : readMembers fuel tail = some (ms, rest)) :
    readMembers (fuel + 1) (name ++ cs) = some ((key, v) :: ms, rest) := by
  rw [readMembers_name hkey hv, readAfterMember, skipSpace_append hs]
  show Option.map _ (readMembers fuel tail) = _
  rw [hms]
  rfl

/-- The reader finds a phrase in front of `rest`. -/
def Phrase.ReadBy (fuel : Nat) (cs rest : List Char) : Phrase → Prop
  | .value v => readValue fuel cs = some (v, rest)
  | .elements vs => readElements fuel cs = some (vs, rest)
  | .members ms => readMembers fuel cs = some (ms, rest)

/-- A call for every character is enough. By induction on how the phrase is written: inside a list
or an object, white space and a separator end what stands before them. -/
theorem Written.readBy {cs : List Char} {p : Phrase} (h : Written cs p) {fuel : Nat}
    {rest : List Char} (hfuel : cs.length < fuel) (hrest : NumberEnd rest) :
    p.ReadBy fuel (cs ++ rest) rest := by
  induction h generalizing fuel rest <;>
    obtain ⟨fuel, rfl⟩ := Nat.exists_eq_add_one_of_ne_zero (Nat.ne_zero_of_lt hfuel)
  case spaced space cs v hs _ ih =>
    have hcs : cs.length < fuel + 1 := by
      rw [List.length_append] at hfuel
      omega
    show readValue _ _ = _
    rw [← readValue_skipSpace, List.append_assoc, skipSpace_append hs, readValue_skipSpace]
    exact ih hcs hrest
  case null | true | false =>
    show readValue _ _ = _
    rw [readValue]
    rfl
  case number h => exact readValue_number fuel h hrest
  case string h => exact readValue_string fuel h rest
  case emptyArray hs => exact readValue_emptyArray fuel hs rest
  case emptyObject hs => exact readValue_emptyObject fuel hs rest
  case array ih => exact readValue_array (ih (Nat.lt_of_succ_lt_succ hfuel) hrest)
  case object ih => exact readValue_object (ih (Nat.lt_of_succ_lt_succ hfuel) hrest)
  -- each part is shorter than the whole, by the separator if by nothing else
  all_goals simp only [List.length_append, List.length_cons, List.length_nil] at hfuel
  case lastElement cs space v _ hs ih =>
    have hv : readValue fuel (cs ++ (space ++ ']' :: rest)) = some (v, _) :=
      ih (by omega) (hs.numberEnd (by simp))
    simpa [Phrase.ReadBy] using readElements_last hv hs
  case element cs space tail v vs _ hs _ ihv ihvs =>
    have hv : readValue fuel (cs ++ (space ++ ',' :: (tail ++ rest))) = some (v, _) :=
      ihv (by omega) (hs.numberEnd (by simp))
    have hvs : readElements fuel (tail ++ rest) = some (vs, rest) := ihvs (by omega) hrest
    simpa [Phrase.ReadBy] using readElements_cons hv hs hvs
  case lastMember name cs space key v hkey _ hs ih =>
    have hv : readValue fuel (cs ++ (space ++ '}' :: rest)) = some (v, _) :=
      ih (by omega) (hs.numberEnd (by simp))
    simpa [Phrase.ReadBy] using readMembers_last hkey hv hs
  case member name cs space tail key v ms hkey _ hs _ ihv ihms =>
    have hv : readValue fuel (cs ++ (space ++ ',' :: (tail ++ rest))) = some (v, _) :=
      ihv (by omega) (hs.numberEnd (by simp))
    have hms : readMembers fuel (tail ++ rest) = some (ms, rest) := ihms (by omega) hrest
    simpa [Phrase.ReadBy] using readMembers_cons hkey hv hs hms

theorem IsText.read?_eq {cs : List Char} {v : Value} (h : IsText cs v) : read? cs = some v := by
  cases h with
  | @intro cs space v h hs =>
    have hend : NumberEnd (space ++ []) := hs.numberEnd (by simp)
    rw [List.append_nil] at hend
    have hfuel : cs.length < (cs ++ space).length + 1 := by
      rw [List.length_append]
      omega
    have hread : readValue ((cs ++ space).length + 1) (cs ++ space) = some (v, space) :=
      h.readBy hfuel hend
    have hskip : skipSpace space = [] := by simpa [skipSpace] using skipSpace_append hs []
    rw [read?, hread, Option.bind_eq_bind, Option.bind_some]
    exact if_pos hskip

theorem IsText.unique {cs : List Char} {v w : Value} (hv : IsText cs v) (hw : IsText cs w) :
    v = w :=
  Option.some.inj (hv.read?_eq.symm.trans hw.read?_eq)

end CursorState.Json
