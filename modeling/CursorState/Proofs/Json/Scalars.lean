import CursorState.Json.Reader
import CursorState.Proofs.Json.Grammar
import CursorState.Proofs.Text.Decimal

/-! Strings and numbers of the grammar are read in full, whatever text comes after them. -/
namespace CursorState.Json
open Text

/-! Strings -/

theorem hexValue?_of_hexDigit {c : Char} {n : Nat} (h : HexDigit c n) : hexValue? c = some n := by
  have hlower : ∀ p ∈ hexDigits.zipIdx, hexValue? p.1 = some p.2 := by decide
  have hupper : ∀ p ∈ (hexDigits.map Char.toUpper).zipIdx, hexValue? p.1 = some p.2 := by decide
  rcases h with h | h
  · exact hlower _ h
  · exact hupper _ h

theorem readHex_append {cs : List Char} {n : Nat} (h : CodeUnit cs n) (rest : List Char) :
    readHex (cs ++ rest) = some (n, rest) := by
  obtain ⟨ha, hb, hc, hd⟩ := h
  simp only [List.cons_append, List.nil_append, readHex, hexValue?_of_hexDigit ha,
    hexValue?_of_hexDigit hb, hexValue?_of_hexDigit hc, hexValue?_of_hexDigit hd,
    Option.bind_eq_bind, Option.bind_some, Option.pure_def, Option.some.injEq, Prod.mk.injEq,
    and_true]
  omega

theorem readEscape_append {cs : List Char} {c : Char} (h : EscapeText cs c) (rest : List Char) :
    readEscape (cs ++ rest) = some (c, rest) := by
  cases h with
  | short h =>
    simp only [shortEscapes, List.mem_cons, Prod.mk.injEq, List.not_mem_nil, or_false] at h
    rcases h with ⟨rfl, rfl⟩ | ⟨rfl, rfl⟩ | ⟨rfl, rfl⟩ | ⟨rfl, rfl⟩ | ⟨rfl, rfl⟩ | ⟨rfl, rfl⟩ |
      ⟨rfl, rfl⟩ | ⟨rfl, rfl⟩ <;> rfl
  | unit h =>
    -- a character is no surrogate
    have hvalid : c.toNat < 0xD800 ∨ 0xDFFF < c.toNat ∧ c.toNat < 0x110000 := c.valid
    have hlow : ¬(0xDC00 ≤ c.toNat ∧ c.toNat ≤ 0xDFFF) := by omega
    have hhigh : ¬(0xD800 ≤ c.toNat ∧ c.toNat ≤ 0xDBFF) := by omega
    simp only [List.cons_append, readEscape, readHex_append h, Option.bind_eq_bind,
      Option.bind_some, if_neg hlow, if_neg hhigh, Char.ofNat_toNat]
  | @pair high low m n _ hhigh hlow hm hn hc =>
    have hfirst : ¬(0xDC00 ≤ 0xD800 + m ∧ 0xD800 + m ≤ 0xDFFF) := by omega
    have hsecond : 0xD800 ≤ 0xD800 + m ∧ 0xD800 + m ≤ 0xDBFF := by omega
    have hthird : 0xDC00 ≤ 0xDC00 + n ∧ 0xDC00 + n ≤ 0xDFFF := by omega
    have hchar : 0x10000 + (0xD800 + m - 0xD800) * 0x400 + (0xDC00 + n - 0xDC00) = c.toNat := by
      omega
    simp only [List.cons_append, List.append_assoc, List.nil_append, readEscape,
      readHex_append hhigh, readHex_append hlow, Option.bind_eq_bind, Option.bind_some,
      if_neg hfirst, if_pos hsecond, if_pos hthird, hchar, Char.ofNat_toNat]

theorem readString_append {cs s : List Char} (h : CharsText cs s) (rest : List Char) :
    readString (cs ++ '"' :: rest) = some (s, rest) := by
  induction h with
  | nil => rw [List.nil_append, readString, if_pos rfl]
  | @cons piece cs s c hc _ ih =>
    cases hc with
    | plain hlow hquote hback =>
      rw [List.append_assoc, List.cons_append, readString, if_neg hquote, if_neg hback,
        if_neg (by omega), List.nil_append, ih]
      rfl
    | @escaped text _ h =>
      have hescape := readEscape_append h (cs ++ '"' :: rest)
      rw [List.append_assoc, List.cons_append, readString, if_neg (by decide), if_pos rfl]
      split
      · next hnone =>
        rw [hescape] at hnone
        cases hnone
      · next d tail hsome =>
        rw [hescape] at hsome
        cases hsome
        rw [ih]
        rfl

/-! Numbers -/

def NoDigit (cs : List Char) : Prop :=
  ∀ c ∈ cs.head?, isAsciiDigit c = false

/-- What follows a number: nothing that could go on with it. -/
def NumberEnd (cs : List Char) : Prop :=
  NoDigit cs ∧ ∀ c ∈ cs.head?, c ∉ ['.', 'e', 'E']

theorem readDigits_append {digits rest : List Char} (h : DigitsText digits)
    (hrest : NoDigit rest) : readDigits (digits ++ rest) = some (digits, rest) := by
  rw [readDigits, span_run_append h.2 hrest]
  obtain ⟨d, ds, rfl⟩ := List.exists_cons_of_ne_nil h.1
  rfl

theorem readInteger_append {integer rest : List Char} (h : IntegerText integer)
    (hrest : NoDigit rest) : readInteger (integer ++ rest) = some (integer, rest) := by
  obtain ⟨hdigits, hzero⟩ := h
  obtain ⟨d, ds, rfl⟩ := List.exists_cons_of_ne_nil hdigits.1
  by_cases hd : d = '0'
  · subst hd
    rw [hzero rfl]
    rfl
  · rw [readInteger, span_run_append hdigits.2 hrest]
    simpa using hd

theorem readFraction_append {text fraction rest : List Char} (h : FractionText text fraction)
    (hrest : NoDigit rest) (hpoint : rest.head? ≠ some '.') :
    readFraction (text ++ rest) = some (fraction, rest) := by
  cases h with
  | absent =>
    rw [List.nil_append, readFraction]
    intro tail htail
    exact hpoint (by rw [htail]; rfl)
  | point h => exact readDigits_append h hrest

theorem readExponent_append {text rest : List Char} {exponent : Option (Bool × List Char)}
    (h : ExponentText text exponent) (hrest : NumberEnd rest) :
    readExponent (text ++ rest) = some (exponent, rest) := by
  cases h with
  | absent =>
    cases rest with
    | nil => rfl
    | cons c cs =>
      have hc : ¬(c = 'e' ∨ c = 'E') := by
        have := hrest.2 c rfl
        simp only [List.mem_cons, List.not_mem_nil, or_false] at this
        tauto
      exact if_neg hc
  | @power e sign digits negative he hsign h =>
    have hdigits := readDigits_append h hrest.1
    simp only [exponentSigns, List.mem_cons, Prod.mk.injEq, List.not_mem_nil, or_false] at hsign
    rcases hsign with ⟨rfl, rfl⟩ | ⟨rfl, rfl⟩ | ⟨rfl, rfl⟩ <;>
      rw [List.append_assoc] <;> refine (if_pos he).trans ?_
    · -- no sign is read where a digit stands
      obtain ⟨d, ds, rfl⟩ := List.exists_cons_of_ne_nil h.1
      have hd := h.2 d List.mem_cons_self
      split
      · next heq =>
        cases heq
        cases hd
      · next heq =>
        cases heq
        cases hd
      · show Option.map _ (readDigits (d :: ds ++ rest)) = _
        rw [hdigits]
        rfl
    all_goals
      show Option.map _ (readDigits (digits ++ rest)) = _
      rw [hdigits]
      rfl

theorem ExponentText.numberEnd {text rest : List Char} {exponent : Option (Bool × List Char)}
    (h : ExponentText text exponent) (hrest : NumberEnd rest) :
    NoDigit (text ++ rest) ∧ (text ++ rest).head? ≠ some '.' := by
  cases h with
  | absent =>
    refine ⟨hrest.1, fun hpoint => ?_⟩
    have := hrest.2 '.' hpoint
    simp at this
  | power he =>
    rcases he with rfl | rfl <;> simp [NoDigit, isAsciiDigit]

theorem FractionText.noDigit {text fraction rest : List Char} (h : FractionText text fraction)
    (hrest : NoDigit rest) : NoDigit (text ++ rest) := by
  cases h with
  | absent => exact hrest
  | point => simp [NoDigit, isAsciiDigit]

def readUnsigned (negative : Bool) (cs : List Char) : Option (NumberToken × List Char) := do
  let (integer, cs) ← readInteger cs
  if cs.head?.any isAsciiDigit then none
  let (fraction, cs) ← readFraction cs
  let (exponent, cs) ← readExponent cs
  return (⟨negative, integer, fraction, exponent⟩, cs)

theorem readNumber_minus (cs : List Char) : readNumber ('-' :: cs) = readUnsigned true cs := rfl

theorem readNumber_of_head {cs : List Char} (h : cs.head? ≠ some '-') :
    readNumber cs = readUnsigned false cs := by
  unfold readNumber
  split
  next negative tail heq =>
    split at heq
    · exact absurd rfl h
    · cases heq
      rfl

theorem readUnsigned_append {integer fraction digits exponent rest : List Char} (negative : Bool)
    {power : Option (Bool × List Char)} (hint : IntegerText integer)
    (hfrac : FractionText fraction digits) (hexp : ExponentText exponent power)
    (hrest : NumberEnd rest) :
    readUnsigned negative (integer ++ fraction ++ exponent ++ rest) =
      some (⟨negative, integer, digits, power⟩, rest) := by
  obtain ⟨hexpEnd, hpoint⟩ := hexp.numberEnd hrest
  have hfracEnd := hfrac.noDigit hexpEnd
  have hany : (fraction ++ (exponent ++ rest)).head?.any isAsciiDigit = false := by
    rw [Option.any_eq_false]
    exact fun c hc => by simp [hfracEnd c hc]
  simp only [readUnsigned, List.append_assoc, readInteger_append hint hfracEnd, hany,
    readFraction_append hfrac hexpEnd hpoint, readExponent_append hexp hrest, Option.bind_eq_bind,
    Option.bind_some, Bool.false_eq_true, if_false, Option.pure_def]

theorem readNumber_append {cs rest : List Char} {token : NumberToken} (h : NumberText cs token)
    (hrest : NumberEnd rest) : readNumber (cs ++ rest) = some (token, rest) := by
  cases h with
  | @intro fraction exponent token hint hfrac hexp =>
    obtain ⟨negative, integer, digits, power⟩ := token
    have hread := readUnsigned_append negative hint hfrac hexp hrest
    cases negative with
    | true => exact hread
    | false =>
      have hhead : (integer ++ fraction ++ exponent ++ rest).head? ≠ some '-' := by
        obtain ⟨d, ds, rfl⟩ := List.exists_cons_of_ne_nil hint.1.1
        have hd := hint.1.2 d List.mem_cons_self
        intro h
        cases h
        cases hd
      exact (readNumber_of_head hhead).trans hread

end CursorState.Json
