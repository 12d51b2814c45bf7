import CursorState.Json.Printer
import CursorState.Proofs.Json.Grammar

/-! How printed text is laid out: strings with no more escapes than they need, and parts in brackets
each on a line of its own. -/
namespace CursorState.Json

/-- A character inside a string. Only quotes, backslashes and what lies below U+0020 are escaped, by
a letter where there is one. -/
def shownChar (c : Char) : List Char :=
  if 0x20 ≤ c.toNat ∧ c ≠ '"' ∧ c ≠ '\\' then [c]
  else
    match shortEscapes.find? fun (_, d) => d = c with
    | some (letter, _) => ['\\', letter]
    | none =>
      ['\\', 'u', '0', '0'] ++ [c.toNat / 16, c.toNat % 16].map fun n => hexDigits.getD n '0'

def shownString (s : String) : List Char :=
  ['"'] ++ s.toList.flatMap shownChar ++ ['"']

def lineStart (n : Nat) : List Char :=
  ['\n'] ++ List.replicate n ' '

/-- Parts between brackets, with a line for each; the brackets alone if there are none. -/
def bracketed (left right : Char) (inner outer : Nat) (parts : List (List Char)) : List Char :=
  if parts = [] then [left, right]
  else
    [left] ++ lineStart inner ++ ([','] ++ lineStart inner).intercalate parts ++ lineStart outer ++
      [right]

def named (name : String) (part : List Char) : List Char :=
  shownString name ++ [':', ' '] ++ part

theorem escape_eq (c : Char) : escape c = shownChar c := by
  by_cases hlow : c.toNat < 0x20
  · have hall : ∀ n < 0x20, escape (Char.ofNat n) = shownChar (Char.ofNat n) := by decide
    have hc := hall c.toNat hlow
    rwa [Char.ofNat_toNat] at hc
  · have hne : ∀ d : Char, d.toNat < 0x20 → c ≠ d := by
      rintro d hd rfl
      exact hlow hd
    by_cases hquote : c = '"'
    · subst hquote
      decide
    by_cases hback : c = '\\'
    · subst hback
      decide
    have hshown : shownChar c = [c] := if_pos ⟨by omega, hquote, hback⟩
    simp [escape, hshown, hquote, hback, hlow, hne '\x08' (by decide), hne '\t' (by decide),
      hne '\n' (by decide), hne '\x0c' (by decide), hne '\r' (by decide)]

theorem quote_eq (s : String) : quote s = shownString s := by
  have hescape : escape = shownChar := funext escape_eq
  simp [quote, shownString, hescape]

theorem newline_eq (depth : Nat) : newline depth = lineStart (2 * depth) := rfl

theorem intercalate_cons {α : Type} (sep part : List α) (parts : List (List α)) :
    sep.intercalate (part :: parts) = part ++ parts.flatMap (sep ++ ·) := by
  induction parts generalizing part with
  | nil => simp
  | cons next parts ih => simp [List.intercalate_cons_cons, ih]

theorem renderElements_eq (depth : Nat) (vs : List Value) :
    renderElements depth vs =
      (vs.map (render depth)).flatMap ([','] ++ lineStart (2 * depth) ++ ·) := by
  induction vs with
  | nil => rw [renderElements]; rfl
  | cons v vs ih => simp [renderElements, ih, newline_eq]

theorem render_array (depth : Nat) (vs : List Value) :
    render depth (.array vs) =
      bracketed '[' ']' (2 * (depth + 1)) (2 * depth) (vs.map (render (depth + 1))) := by
  cases vs with
  | nil => rw [render]; rfl
  | cons v vs => simp [render, bracketed, intercalate_cons, renderElements_eq, newline_eq]

def renderMember (depth : Nat) (m : String × Value) : List Char :=
  named m.1 (render depth m.2)

theorem renderMembers_eq (depth : Nat) (ms : List (String × Value)) :
    renderMembers depth ms =
      (ms.map (renderMember depth)).flatMap ([','] ++ lineStart (2 * depth) ++ ·) := by
  induction ms with
  | nil => rw [renderMembers]; rfl
  | cons m ms ih => simp [renderMembers, ih, newline_eq, quote_eq, renderMember, named]

theorem render_object (depth : Nat) (ms : List (String × Value)) :
    render depth (.object ms) =
      bracketed '{' '}' (2 * (depth + 1)) (2 * depth) (ms.map (renderMember (depth + 1))) := by
  cases ms with
  | nil => rw [render]; rfl
  | cons m ms =>
    simp [render, bracketed, intercalate_cons, renderMembers_eq, newline_eq, quote_eq,
      renderMember, named]

end CursorState.Json
