import CursorState.Proofs.Json.ReadWritten

/-! What is read is a text of the grammar. With the other direction, the reader accepts JSON texts
and nothing else. -/
namespace CursorState.Json
open Text

/-! Strings -/

theorem hexDigit_of_hexValue? {c : Char} {n : Nat} (h : hexValue? c = some n) :
    HexDigit c n ∧ n < 16 := by
  have hall : ∀ m < 128, ∀ n ∈ hexValue? (Char.ofNat m),
      ((Char.ofNat m, n) ∈ hexDigits.zipIdx ∨
        (Char.ofNat m, n) ∈ (hexDigits.map Char.toUpper).zipIdx) ∧ n < 16 := by decide
  have hc : c.toNat < 128 := by
    simp only [hexValue?, Char.le_def, UInt32.le_iff_toNat_le] at h
    split_ifs at h with hdigit hlower hupper
    · exact Nat.lt_of_le_of_lt hdigit.2 (by decide)
    · exact Nat.lt_of_le_of_lt hlower.2 (by decide)
    · exact Nat.lt_of_le_of_lt hupper.2 (by decide)
  have hn := hall c.toNat hc n
  rw [Char.ofNat_toNat] at hn
  exact hn h

theorem readHex_sound {cs rest : List Char} {n : Nat} (h : readHex cs = some (n, rest)) :
    ∃ digits, CodeUnit digits n ∧ n < 0x10000 ∧ cs = digits ++ rest := by
  unfold readHex at h
  split at h
  · simp only [Option.bind_eq_bind, Option.bind_eq_some_iff, Option.pure_def, Option.some.injEq,
      Prod.mk.injEq] at h
    obtain ⟨i, hi, j, hj, k, hk, l, hl, rfl, rfl⟩ := h
    obtain ⟨hi, _⟩ := hexDigit_of_hexValue? hi
    obtain ⟨hj, _⟩ := hexDigit_of_hexValue? hj
    obtain ⟨hk, _⟩ := hexDigit_of_hexValue? hk
    obtain ⟨hl, _⟩ := hexDigit_of_hexValue? hl
    have hunit := CodeUnit.intro hi hj hk hl
    have hvalue : 0x1000 * i + 0x100 * j + 0x10 * k + l = ((i * 16 + j) * 16 + k) * 16 + l := by
      omega
    rw [hvalue] at hunit
    exact ⟨_, hunit, by omega, rfl⟩
  · cases h

theorem toNat_ofNat_of_valid {n : Nat} (h : n.isValidChar) : (Char.ofNat n).toNat = n := by
  rw [Char.ofNat, dif_pos h]
  rfl

theorem readEscape_sound {cs rest : List Char} {c : Char} (h : readEscape cs = some (c, rest)) :
    ∃ text, EscapeText text c ∧ cs = text ++ rest := by
  unfold readEscape at h
  split at h
  case h_9 =>
    simp only [Option.bind_eq_bind, Option.bind_eq_some_iff] at h
    obtain ⟨⟨high, tail⟩, hhigh, h⟩ := h
    obtain ⟨digits, hunit, hbound, rfl⟩ := readHex_sound hhigh
    dsimp only at h
    split_ifs at h with hlow hsurrogate
    · split at h
      · rw [Option.bind_eq_some_iff] at h
        obtain ⟨⟨low, tail'⟩, hread, h⟩ := h
        obtain ⟨digits', hunit', hbound', rfl⟩ := readHex_sound hread
        dsimp only at h
        split_ifs at h with hpair
        simp only [Option.some.injEq, Prod.mk.injEq] at h
        obtain ⟨rfl, rfl⟩ := h
        obtain ⟨m, rfl⟩ := Nat.exists_eq_add_of_le hsurrogate.1
        obtain ⟨n, rfl⟩ := Nat.exists_eq_add_of_le hpair.1
        have hvalid : (0x10000 + m * 0x400 + n).isValidChar := by
          simp only [Nat.isValidChar]
          omega
        rw [Nat.add_sub_cancel_left, Nat.add_sub_cancel_left]
        have hc : (Char.ofNat (0x10000 + m * 0x400 + n)).toNat = 0x10000 + 0x400 * m + n := by
          rw [toNat_ofNat_of_valid hvalid, Nat.mul_comm m]
        exact ⟨_, .pair hunit hunit' (by omega) (by omega) hc, by simp⟩
      · cases h
    · have hvalid : high.isValidChar := by
        simp only [Nat.isValidChar]
        omega
      simp only [Option.some.injEq, Prod.mk.injEq] at h
      obtain ⟨rfl, rfl⟩ := h
      rw [← toNat_ofNat_of_valid hvalid] at hunit
      exact ⟨_, .unit hunit, rfl⟩
  case h_10 => cases h
  all_goals
    cases h
    exact ⟨[_], .short (by decide), rfl⟩

theorem readString_sound {cs s rest : List Char} (h : readString cs = some (s, rest)) :
    ∃ text, CharsText text s ∧ cs = text ++ '"' :: rest := by
  fun_induction readString cs generalizing s rest with
  | case1 => cases h
  | case2 =>
    cases h
    exact ⟨[], .nil, rfl⟩
  | case3 => cases h
  | case4 _ c tail hescape _ ih =>
    obtain ⟨⟨s, rest⟩, hread, heq⟩ := Option.map_eq_some_iff.mp h
    cases heq
    obtain ⟨escaped, hc, rfl⟩ := readEscape_sound hescape
    obtain ⟨text, hs, rfl⟩ := ih hread
    exact ⟨_, .cons (.escaped hc) hs, by simp⟩
  | case5 => cases h
  | case6 c tail hquote hback hcontrol ih =>
    obtain ⟨⟨s, rest⟩, hread, heq⟩ := Option.map_eq_some_iff.mp h
    cases heq
    obtain ⟨text, hs, rfl⟩ := ih hread
    exact ⟨_, .cons (.plain (by omega) hquote hback) hs, rfl⟩

/-! Numbers -/

theorem readDigits_sound {cs digits rest : List Char} (h : readDigits cs = some (digits, rest)) :
    DigitsText digits ∧ cs = digits ++ rest := by
  rw [readDigits, List.span_eq_takeWhile_dropWhile] at h
  split at h
  · cases h
  · next hne =>
    obtain ⟨hfound, htail⟩ := Prod.mk.inj (Option.some.inj h)
    refine ⟨⟨fun hnil => ?_, fun c hc => ?_⟩, ?_⟩
    · exact hne _ (by rw [hfound, hnil])
    · exact List.mem_takeWhile_imp (hfound ▸ hc)
    · rw [← hfound, ← htail, List.takeWhile_append_dropWhile]

theorem readInteger_sound {cs integer rest : List Char}
    (h : readInteger cs = some (integer, rest)) : IntegerText integer ∧ cs = integer ++ rest := by
  unfold readInteger at h
  split at h
  · cases h
    exact ⟨⟨⟨by simp, by simp [isAsciiDigit]⟩, fun _ => rfl⟩, rfl⟩
  · next hzero =>
    obtain ⟨hdigits, rfl⟩ := readDigits_sound h
    refine ⟨⟨hdigits, fun hhead => ?_⟩, rfl⟩
    obtain ⟨d, ds, rfl⟩ := List.exists_cons_of_ne_nil hdigits.1
    cases hhead
    exact absurd rfl (hzero _)

theorem readFraction_sound {cs fraction rest : List Char}
    (h : readFraction cs = some (fraction, rest)) :
    ∃ text, FractionText text fraction ∧ cs = text ++ rest := by
  unfold readFraction at h
  split at h
  · obtain ⟨hdigits, rfl⟩ := readDigits_sound h
    exact ⟨_, .point hdigits, rfl⟩
  · cases h
    exact ⟨[], .absent, rfl⟩

theorem readPower_sound {e : Char} {sign tail rest : List Char} {negative : Bool}
    {exponent : Option (Bool × List Char)} (he : e = 'e' ∨ e = 'E')
    (hsign : (sign, negative) ∈ exponentSigns)
    (h : (readDigits tail).map (fun (ds, rest) => (some (negative, ds), rest)) =
      some (exponent, rest)) :
    ∃ text, ExponentText text exponent ∧ e :: (sign ++ tail) = text ++ rest := by
  obtain ⟨⟨digits, rest⟩, hread, heq⟩ := Option.map_eq_some_iff.mp h
  cases heq
  obtain ⟨hdigits, rfl⟩ := readDigits_sound hread
  exact ⟨_, .power he hsign hdigits, by simp⟩

theorem readExponent_sound {cs rest : List Char} {exponent : Option (Bool × List Char)}
    (h : readExponent cs = some (exponent, rest)) :
    ∃ text, ExponentText text exponent ∧ cs = text ++ rest := by
  unfold readExponent at h
  split at h
  · split_ifs at h with he
    · split at h
      · exact @readPower_sound _ ['-'] _ _ _ _ he (by decide) h
      · exact @readPower_sound _ ['+'] _ _ _ _ he (by decide) h
      · exact @readPower_sound _ [] _ _ _ _ he (by decide) h
    · cases h
      exact ⟨[], .absent, rfl⟩
  · cases h
    exact ⟨[], .absent, rfl⟩

theorem readUnsigned_sound {negative : Bool} {cs rest : List Char} {token : NumberToken}
    (h : readUnsigned negative cs = some (token, rest)) :
    ∃ fraction exponent, IntegerText token.integer ∧ FractionText fraction token.fraction ∧
      ExponentText exponent token.exponent ∧ token.negative = negative ∧
      cs = token.integer ++ fraction ++ exponent ++ rest := by
  simp only [readUnsigned, Option.bind_eq_bind, Option.bind_eq_some_iff, Option.pure_def] at h
  obtain ⟨⟨integer, cs₁⟩, hreadInt, h⟩ := h
  simp only [Option.bind_none, Option.ite_none_left_eq_some, Option.bind_eq_some_iff,
    Option.some.injEq, Prod.mk.injEq] at h
  obtain ⟨-, ⟨fraction, cs₂⟩, hreadFrac, ⟨exponent, cs₃⟩, hreadExp, rfl, rfl⟩ := h
  obtain ⟨hint, rfl⟩ := readInteger_sound hreadInt
  obtain ⟨text, hfrac, rfl⟩ := readFraction_sound hreadFrac
  obtain ⟨text', hexp, rfl⟩ := readExponent_sound hreadExp
  exact ⟨text, text', hint, hfrac, hexp, rfl, by simp⟩

theorem readNumber_sound {cs rest : List Char} {token : NumberToken}
    (h : readNumber cs = some (token, rest)) :
    ∃ text, NumberText text token ∧ cs = text ++ rest := by
  by_cases hminus : cs.head? = some '-'
  · obtain ⟨tail, rfl⟩ : ∃ tail, cs = '-' :: tail := ⟨cs.tail, List.eq_cons_of_mem_head? hminus⟩
    rw [readNumber_minus] at h
    obtain ⟨fraction, exponent, hint, hfrac, hexp, hsign, rfl⟩ := readUnsigned_sound h
    exact ⟨_, .intro hint hfrac hexp, by simp [hsign]⟩
  · rw [readNumber_of_head hminus] at h
    obtain ⟨fraction, exponent, hint, hfrac, hexp, hsign, rfl⟩ := readUnsigned_sound h
    exact ⟨_, .intro hint hfrac hexp, by simp [hsign]⟩

/-! Values -/

theorem exists_spaces (cs : List Char) : ∃ space, Spaces space ∧ cs = space ++ skipSpace cs :=
  ⟨cs.takeWhile isSpace, fun _ h => isSpace_iff.mp (List.mem_takeWhile_imp h),
    List.takeWhile_append_dropWhile.symm⟩

/-- `cs` begins with a text of `p`, and `rest` is what is left. -/
def Phrase.Begins (p : Phrase) (cs rest : List Char) : Prop :=
  ∃ text, Written text p ∧ cs = text ++ rest

theorem Phrase.Begins.spaced {v : Value} {cs rest : List Char}
    (h : (Phrase.value v).Begins (skipSpace cs) rest) : (Phrase.value v).Begins cs rest := by
  obtain ⟨space, hs, hcs⟩ := exists_spaces cs
  obtain ⟨text, hv, htext⟩ := h
  exact ⟨space ++ text, .spaced hs hv, by rw [hcs, htext, List.append_assoc]⟩

theorem exists_name_of_readMembers {fuel : Nat} {cs rest : List Char}
    {ms : List (String × Value)} (h : readMembers (fuel + 1) cs = some (ms, rest)) :
    ∃ name key tail v tail', MemberName name key ∧ cs = name ++ tail ∧
      readValue fuel tail = some (v, tail') ∧
      readAfterMember fuel (key, v) tail' = some (ms, rest) := by
  obtain ⟨before, hbefore, hcs⟩ := exists_spaces cs
  simp only [readMembers, Option.bind_eq_bind] at h
  split at h
  · next hquote =>
    rw [Option.bind_eq_some_iff] at h
    obtain ⟨⟨key, afterKey⟩, hreadKey, h⟩ := h
    obtain ⟨inner, hkey, rfl⟩ := readString_sound hreadKey
    obtain ⟨after, hafter, hafterKey⟩ := exists_spaces afterKey
    have hstring : StringText ('"' :: inner ++ ['"']) (String.ofList key) :=
      .intro (by rwa [String.toList_ofList])
    have hname := MemberName.intro hbefore hstring hafter
    dsimp only at h
    split at h
    · next tail hcolon =>
      rw [Option.bind_some, Option.bind_eq_some_iff] at h
      obtain ⟨⟨v, tail'⟩, hread, h⟩ := h
      rw [hquote, hafterKey, hcolon] at hcs
      exact ⟨_, _, tail, v, tail', hname, by simp [hcs], hread, h⟩
    · cases h
  · cases h

structure ReadsWritten (fuel : Nat) : Prop where
  value : ∀ {cs rest v}, readValue fuel cs = some (v, rest) → (Phrase.value v).Begins cs rest
  elements : ∀ {cs rest vs},
    readElements fuel cs = some (vs, rest) → (Phrase.elements vs).Begins cs rest
  members : ∀ {cs rest ms},
    readMembers fuel cs = some (ms, rest) → (Phrase.members ms).Begins cs rest

namespace ReadsWritten

variable {fuel : Nat}

theorem value_step (ih : ReadsWritten fuel) {cs rest : List Char} {v : Value}
    (h : readValue (fuel + 1) cs = some (v, rest)) : (Phrase.value v).Begins cs rest := by
  apply Phrase.Begins.spaced
  rw [readValue] at h
  split at h
  case h_1 => cases h
  case h_2 tail heq =>
    obtain ⟨⟨s, rest⟩, hread, hsome⟩ := Option.map_eq_some_iff.mp h
    cases hsome
    obtain ⟨text, hs, rfl⟩ := readString_sound hread
    have hstring : StringText ('"' :: text ++ ['"']) (String.ofList s) :=
      .intro (by rwa [String.toList_ofList])
    exact ⟨_, .string hstring, by simp [heq]⟩
  case h_3 tail heq =>
    split at h
    · next hbracket =>
      cases h
      obtain ⟨space, hs, htail⟩ := exists_spaces tail
      exact ⟨_, .emptyArray hs, by rw [heq, htail, hbracket]; simp⟩
    · rw [readElements_skipSpace] at h
      obtain ⟨⟨vs, rest⟩, hread, hsome⟩ := Option.map_eq_some_iff.mp h
      cases hsome
      obtain ⟨text, hvs, rfl⟩ := ih.elements hread
      exact ⟨_, .array hvs, heq⟩
  case h_4 tail heq =>
    split at h
    · next hbrace =>
      cases h
      obtain ⟨space, hs, htail⟩ := exists_spaces tail
      exact ⟨_, .emptyObject hs, by rw [heq, htail, hbrace]; simp⟩
    · rw [readMembers_skipSpace] at h
      obtain ⟨⟨ms, rest⟩, hread, hsome⟩ := Option.map_eq_some_iff.mp h
      cases hsome
      obtain ⟨text, hms, rfl⟩ := ih.members hread
      exact ⟨_, .object hms, heq⟩
  case h_5 heq =>
    cases h
    exact ⟨_, .null, heq⟩
  case h_6 heq =>
    cases h
    exact ⟨_, .true, heq⟩
  case h_7 heq =>
    cases h
    exact ⟨_, .false, heq⟩
  case h_8 =>
    simp only [Option.bind_eq_bind, Option.bind_eq_some_iff, Option.pure_def, Option.some.injEq,
      Prod.mk.injEq] at h
    obtain ⟨⟨token, rest⟩, hread, rfl, rfl⟩ := h
    obtain ⟨text, htoken, hcs⟩ := readNumber_sound hread
    exact ⟨text, .number htoken, hcs⟩

theorem elements_step (ih : ReadsWritten fuel) {cs rest : List Char} {vs : List Value}
    (h : readElements (fuel + 1) cs = some (vs, rest)) : (Phrase.elements vs).Begins cs rest := by
  simp only [readElements, Option.bind_eq_bind, Option.bind_eq_some_iff] at h
  obtain ⟨⟨v, tail⟩, hread, h⟩ := h
  obtain ⟨text, hv, rfl⟩ := ih.value hread
  obtain ⟨space, hs, htail⟩ := exists_spaces tail
  dsimp only at h
  split at h
  · next hbracket =>
    cases h
    exact ⟨_, hv.lastElement hs, by rw [htail, hbracket]; simp⟩
  · next hcomma =>
    obtain ⟨⟨vs, rest⟩, hread, hsome⟩ := Option.map_eq_some_iff.mp h
    cases hsome
    obtain ⟨text', hvs, rfl⟩ := ih.elements hread
    exact ⟨_, hv.element hs hvs, by rw [htail, hcomma]; simp⟩
  · cases h

theorem members_step (ih : ReadsWritten fuel) {cs rest : List Char}
    {ms : List (String × Value)} (h : readMembers (fuel + 1) cs = some (ms, rest)) :
    (Phrase.members ms).Begins cs rest := by
  obtain ⟨name, key, tail, v, tail', hname, rfl, hread, hend⟩ := exists_name_of_readMembers h
  obtain ⟨text, hv, rfl⟩ := ih.value hread
  obtain ⟨space, hs, htail⟩ := exists_spaces tail'
  unfold readAfterMember at hend
  split at hend
  · next hbrace =>
    cases hend
    exact ⟨_, hv.lastMember hname hs, by rw [htail, hbrace]; simp⟩
  · next hcomma =>
    obtain ⟨⟨ms, rest⟩, hread, hsome⟩ := Option.map_eq_some_iff.mp hend
    cases hsome
    obtain ⟨text', hms, rfl⟩ := ih.members hread
    exact ⟨_, hv.member hname hs hms, by rw [htail, hcomma]; simp⟩
  · cases hend

theorem of_fuel (fuel : Nat) : ReadsWritten fuel := by
  induction fuel with
  | zero =>
    constructor <;> intro cs rest p h
    · rw [readValue] at h
      cases h
    · rw [readElements] at h
      cases h
    · rw [readMembers] at h
      cases h
  | succ fuel ih => exact ⟨ih.value_step, ih.elements_step, ih.members_step⟩

end ReadsWritten

/-- The reader finds a value in exactly the texts of the grammar, and it is the one that the text
stands for. -/
theorem read?_eq_some_iff {cs : List Char} {v : Value} : read? cs = some v ↔ IsText cs v := by
  constructor
  · intro h
    simp only [read?, Option.bind_eq_bind, Option.bind_eq_some_iff, Option.ite_none_right_eq_some,
      Option.some.injEq] at h
    obtain ⟨⟨v, rest⟩, hread, hend, rfl⟩ := h
    obtain ⟨text, hv, hcs⟩ := (ReadsWritten.of_fuel _).value hread
    obtain ⟨space, hs, hrest⟩ := exists_spaces rest
    rw [hend, List.append_nil] at hrest
    rw [hcs, hrest]
    exact .intro hv hs
  · exact IsText.read?_eq

end CursorState.Json
