import CursorState.Json.Value

/-! The grammar of JSON texts: which value a text stands for, as relations that know nothing of how
a text is read or written. -/
namespace CursorState.Json
open Text

def Spaces (cs : List Char) : Prop :=
  ∀ c ∈ cs, c ∈ [' ', '\t', '\n', '\r']

theorem spaces_nil : Spaces [] := List.forall_mem_nil _

/-! Strings -/

def hexDigits : List Char :=
  ['0', '1', '2', '3', '4', '5', '6', '7', '8', '9', 'a', 'b', 'c', 'd', 'e', 'f']

/-- `HexDigit c n`: in lower or upper case, `c` is the digit `n`. -/
def HexDigit (c : Char) (n : Nat) : Prop :=
  (c, n) ∈ hexDigits.zipIdx ∨ (c, n) ∈ (hexDigits.map Char.toUpper).zipIdx

/-- `CodeUnit cs n`: `n` in four hexadecimal digits. -/
inductive CodeUnit : List Char → Nat → Prop
  | intro {a b c d : Char} {i j k l : Nat} (ha : HexDigit a i) (hb : HexDigit b j)
      (hc : HexDigit c k) (hd : HexDigit d l) :
      CodeUnit [a, b, c, d] (0x1000 * i + 0x100 * j + 0x10 * k + l)

def shortEscapes : List (Char × Char) :=
  [('"', '"'), ('\\', '\\'), ('/', '/'), ('b', '\x08'), ('f', '\x0c'), ('n', '\n'), ('r', '\r'),
   ('t', '\t')]

/-- `EscapeText cs c`: after a backslash, `cs` stands for `c`. -/
inductive EscapeText : List Char → Char → Prop
  | short {letter c : Char} (h : (letter, c) ∈ shortEscapes) : EscapeText [letter] c
  | unit {digits : List Char} {c : Char} (h : CodeUnit digits c.toNat) :
      EscapeText ('u' :: digits) c
  /-- Above U+FFFF a character is a surrogate pair. -/
  | pair {high low : List Char} {m n : Nat} {c : Char} (hhigh : CodeUnit high (0xD800 + m))
      (hlow : CodeUnit low (0xDC00 + n)) (hm : m < 0x400) (hn : n < 0x400)
      (hc : c.toNat = 0x10000 + 0x400 * m + n) :
      EscapeText ('u' :: high ++ ['\\', 'u'] ++ low) c

/-- `CharText cs c`: inside a string, `cs` stands for `c`. -/
inductive CharText : List Char → Char → Prop
  | plain {c : Char} (hlow : 0x20 ≤ c.toNat) (hquote : c ≠ '"') (hback : c ≠ '\\') :
      CharText [c] c
  | escaped {cs : List Char} {c : Char} (h : EscapeText cs c) : CharText ('\\' :: cs) c

/-- `CharsText cs s`: inside a string, `cs` stands for the characters `s`. -/
inductive CharsText : List Char → List Char → Prop
  | nil : CharsText [] []
  | cons {piece cs s : List Char} {c : Char} (hc : CharText piece c) (hs : CharsText cs s) :
      CharsText (piece ++ cs) (c :: s)

inductive StringText : List Char → String → Prop
  | intro {cs : List Char} {s : String} (h : CharsText cs s.toList) :
      StringText ('"' :: cs ++ ['"']) s

/-! Numbers -/

def DigitsText (cs : List Char) : Prop :=
  cs ≠ [] ∧ ∀ c ∈ cs, isAsciiDigit c

def IntegerText (cs : List Char) : Prop :=
  DigitsText cs ∧ (cs.head? = some '0' → cs = ['0'])

inductive FractionText : List Char → List Char → Prop
  | absent : FractionText [] []
  | point {digits : List Char} (h : DigitsText digits) : FractionText ('.' :: digits) digits

/-- The signs of an exponent; `true` is minus. -/
def exponentSigns : List (List Char × Bool) :=
  [([], false), (['+'], false), (['-'], true)]

inductive ExponentText : List Char → Option (Bool × List Char) → Prop
  | absent : ExponentText [] none
  | power {e : Char} {sign digits : List Char} {negative : Bool} (he : e = 'e' ∨ e = 'E')
      (hsign : (sign, negative) ∈ exponentSigns) (h : DigitsText digits) :
      ExponentText (e :: sign ++ digits) (some (negative, digits))

/-- `NumberText cs token`: the parts of `token`, one after the other. -/
inductive NumberText : List Char → NumberToken → Prop
  | intro {fraction exponent : List Char} {token : NumberToken} (hint : IntegerText token.integer)
      (hfrac : FractionText fraction token.fraction)
      (hexp : ExponentText exponent token.exponent) :
      NumberText ((if token.negative then ['-'] else []) ++ token.integer ++ fraction ++ exponent)
        token

/-! Values -/

/-- What a piece of text holds: a value, or what stands after the opening bracket of a list or an
object, its closing bracket included. -/
inductive Phrase where
  | value (v : Value)
  | elements (vs : List Value)
  | members (ms : List (String × Value))

inductive MemberName : List Char → String → Prop
  | intro {before text after : List Char} {key : String} (hbefore : Spaces before)
      (hkey : StringText text key) (hafter : Spaces after) :
      MemberName (before ++ text ++ after ++ [':']) key

/-- `Written cs p`: `cs` stands for `p`. -/
inductive Written : List Char → Phrase → Prop
  | spaced {space cs : List Char} {v : Value} (hs : Spaces space) (h : Written cs (.value v)) :
      Written (space ++ cs) (.value v)
  | null : Written ['n', 'u', 'l', 'l'] (.value .null)
  | true : Written ['t', 'r', 'u', 'e'] (.value (.bool .true))
  | false : Written ['f', 'a', 'l', 's', 'e'] (.value (.bool .false))
  | number {cs : List Char} {token : NumberToken} (h : NumberText cs token) :
      Written cs (.value (.number token))
  | string {cs : List Char} {s : String} (h : StringText cs s) : Written cs (.value (.string s))
  | emptyArray {space : List Char} (hs : Spaces space) :
      Written ('[' :: space ++ [']']) (.value (.array []))
  | array {cs : List Char} {vs : List Value} (h : Written cs (.elements vs)) :
      Written ('[' :: cs) (.value (.array vs))
  | emptyObject {space : List Char} (hs : Spaces space) :
      Written ('{' :: space ++ ['}']) (.value (.object []))
  | object {cs : List Char} {ms : List (String × Value)} (h : Written cs (.members ms)) :
      Written ('{' :: cs) (.value (.object ms))
  | lastElement {cs space : List Char} {v : Value} (hv : Written cs (.value v))
      (hs : Spaces space) : Written (cs ++ space ++ [']']) (.elements [v])
  | element {cs space rest : List Char} {v : Value} {vs : List Value}
      (hv : Written cs (.value v)) (hs : Spaces space) (hvs : Written rest (.elements vs)) :
      Written (cs ++ space ++ [','] ++ rest) (.elements (v :: vs))
  | lastMember {name cs space : List Char} {key : String} {v : Value} (hkey : MemberName name key)
      (hv : Written cs (.value v)) (hs : Spaces space) :
      Written (name ++ cs ++ space ++ ['}']) (.members [(key, v)])
  | member {name cs space rest : List Char} {key : String} {v : Value}
      {ms : List (String × Value)} (hkey : MemberName name key) (hv : Written cs (.value v))
      (hs : Spaces space) (hms : Written rest (.members ms)) :
      Written (name ++ cs ++ space ++ [','] ++ rest) (.members ((key, v) :: ms))

/-- `IsText cs v`: `cs` is a whole text, and stands for `v`. -/
inductive IsText : List Char → Value → Prop
  | intro {cs space : List Char} {v : Value} (h : Written cs (.value v)) (hs : Spaces space) :
      IsText (cs ++ space) v

end CursorState.Json
