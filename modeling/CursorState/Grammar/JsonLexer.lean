/-! The tokens of JSON with comments. A text is read as a list of characters, one for each of its
bytes. -/
namespace CursorState.Grammar

/-- Tokens outside strings. Numbers and keywords are alike to the automaton. -/
inductive Lexeme where
  | openBrace
  | closeBrace
  | openBracket
  | closeBracket
  | colon
  | comma
  | scalar
  | quote
  deriving DecidableEq, Repr

def isBlankByte (c : Char) : Bool :=
  ('\t' ≤ c && c ≤ '\r') || c == ' '

def isDigitByte (c : Char) : Bool :=
  '0' ≤ c && c ≤ '9'

def afterComment? : List Char → Option (List Char)
  | [] => none
  | '*' :: '/' :: cs => some cs
  | _ :: cs => afterComment? cs

theorem afterComment?_length {cs rest : List Char} (h : afterComment? cs = some rest) :
    rest.length < cs.length := by
  fun_induction afterComment? cs with
  | case1 => cases h
  | case2 cs =>
    cases h
    simp only [List.length_cons]
    omega
  | case3 c cs _ ih => exact Nat.lt_succ_of_lt (ih h)

/-- Drop blanks and comments. A comment that is opened by `/*` and not closed is none. -/
def skipExtras : List Char → List Char
  | [] => []
  | c :: cs =>
    if isBlankByte c then skipExtras cs
    else if c = '/' ∧ cs.head? = some '/' then skipExtras (cs.dropWhile (· ≠ '\n'))
    else if c = '/' ∧ cs.head? = some '*' then
      match _h : afterComment? cs.tail with
      | some rest => skipExtras rest
      | none => c :: cs
    else c :: cs
  termination_by cs => cs.length
  decreasing_by
    · exact Nat.lt_succ_self _
    · exact Nat.lt_succ_of_le (List.dropWhile_suffix _).length_le
    · have := afterComment?_length _h
      simp only [List.length_tail, List.length_cons] at *
      omega

theorem skipExtras_length_le (cs : List Char) : (skipExtras cs).length ≤ cs.length := by
  fun_induction skipExtras cs with
  | case1 => exact Nat.le_refl _
  | case2 c cs _ ih => exact Nat.le_succ_of_le ih
  | case3 c cs _ _ ih =>
    exact Nat.le_succ_of_le (Nat.le_trans ih (List.dropWhile_suffix _).length_le)
  | case4 c cs _ _ _ rest h ih =>
    have := afterComment?_length h
    simp only [List.length_tail, List.length_cons] at *
    omega
  | case5 => exact Nat.le_refl _
  | case6 => exact Nat.le_refl _

def afterMinus (cs : List Char) : List Char :=
  match cs with
  | '-' :: rest => rest
  | cs => cs

/-- What follows an exponent; without a digit there is no exponent. -/
def afterExponent (cs : List Char) : List Char :=
  match cs with
  | c :: rest =>
    if (c = 'e' ∨ c = 'E') ∧ (afterMinus rest).head?.any isDigitByte then
      (afterMinus rest).dropWhile isDigitByte
    else cs
  | [] => []

def afterFraction (cs : List Char) : List Char :=
  match cs with
  | '.' :: rest => rest.dropWhile isDigitByte
  | cs => cs

/-- What follows a number: an integer without leading zeros, perhaps a point and digits, perhaps an
exponent. -/
def afterNumber? (cs : List Char) : Option (List Char) :=
  match afterMinus cs with
  | [] => none
  | c :: rest =>
    if c = '0' then some (afterExponent (afterFraction rest))
    else if isDigitByte c then some (afterExponent (afterFraction (rest.dropWhile isDigitByte)))
    else none

theorem afterMinus_length_le (cs : List Char) : (afterMinus cs).length ≤ cs.length := by
  unfold afterMinus
  split
  · exact Nat.le_succ _
  · exact Nat.le_refl _

theorem afterExponent_length_le (cs : List Char) : (afterExponent cs).length ≤ cs.length := by
  unfold afterExponent
  split
  · next c rest =>
    split
    · exact Nat.le_succ_of_le
        (Nat.le_trans (List.dropWhile_suffix _).length_le (afterMinus_length_le rest))
    · exact Nat.le_refl _
  · exact Nat.le_refl _

theorem afterFraction_length_le (cs : List Char) : (afterFraction cs).length ≤ cs.length := by
  unfold afterFraction
  split
  · exact Nat.le_succ_of_le (List.dropWhile_suffix _).length_le
  · exact Nat.le_refl _

theorem afterNumber?_length {cs rest : List Char} (h : afterNumber? cs = some rest) :
    rest.length < cs.length := by
  unfold afterNumber? at h
  split at h
  · cases h
  · next c tail hcs =>
    have htail : tail.length < cs.length := by
      have := afterMinus_length_le cs
      simp only [hcs, List.length_cons] at this
      omega
    split at h
    · cases h
      exact Nat.lt_of_le_of_lt (Nat.le_trans (afterExponent_length_le _)
        (afterFraction_length_le _)) htail
    · split at h
      · cases h
        exact Nat.lt_of_le_of_lt (Nat.le_trans (afterExponent_length_le _)
          (Nat.le_trans (afterFraction_length_le _) (List.dropWhile_suffix _).length_le)) htail
      · cases h

/-- The token that a text starts with, and what follows it. Keywords end where they end, whatever
follows. -/
def lexeme? (cs : List Char) : Option (Lexeme × List Char) :=
  match cs with
  | '{' :: rest => some (.openBrace, rest)
  | '}' :: rest => some (.closeBrace, rest)
  | '[' :: rest => some (.openBracket, rest)
  | ']' :: rest => some (.closeBracket, rest)
  | ':' :: rest => some (.colon, rest)
  | ',' :: rest => some (.comma, rest)
  | '"' :: rest => some (.quote, rest)
  | 't' :: 'r' :: 'u' :: 'e' :: rest => some (.scalar, rest)
  | 'f' :: 'a' :: 'l' :: 's' :: 'e' :: rest => some (.scalar, rest)
  | 'n' :: 'u' :: 'l' :: 'l' :: rest => some (.scalar, rest)
  | cs => (afterNumber? cs).map fun rest => (.scalar, rest)

theorem lexeme?_length {cs rest : List Char} {l : Lexeme} (h : lexeme? cs = some (l, rest)) :
    rest.length < cs.length := by
  unfold lexeme? at h
  split at h
  case h_11 =>
    obtain ⟨_, h', he⟩ := Option.map_eq_some_iff.1 h
    cases he
    exact afterNumber?_length h'
  all_goals
    cases h
    simp only [List.length_cons]
    omega

def isPlain (c : Char) : Bool :=
  c != '\n' && c != '"' && c != '\\' && c != '\x00'

def isEscaped (c : Char) : Bool :=
  ['"', '/', '\\', 'b', 'f', 'n', 'r', 't', 'u'].contains c

/-- What follows the next part of a string: an escape, or the longest run of plain characters. -/
def afterPart? (cs : List Char) : Option (List Char) :=
  match cs with
  | [] => none
  | c :: rest =>
    if c = '\\' then if rest.head?.any isEscaped then some rest.tail else none
    else if isPlain c then some (rest.dropWhile isPlain)
    else none

theorem afterPart?_length {cs rest : List Char} (h : afterPart? cs = some rest) :
    rest.length < cs.length := by
  unfold afterPart? at h
  split at h
  · cases h
  · split at h
    · split at h
      · cases h
        simp only [List.length_tail, List.length_cons]
        omega
      · cases h
    · split at h
      · cases h
        exact Nat.lt_succ_of_le (List.dropWhile_suffix _).length_le
      · cases h

end CursorState.Grammar
