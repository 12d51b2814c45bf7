import CursorState.Json.Value

/-! The indented form of JSON values: two blanks for a level, one line for a member or an element,
no line for an empty list or object. -/
namespace CursorState.Json

def hexDigit (n : Nat) : Char :=
  if n < 10 then Char.ofNat ('0'.toNat + n) else Char.ofNat ('a'.toNat + (n - 10))

/-- How a character is written inside a string. Quotes, backslashes and what lies below U+0020 are
escaped; all else is written as it is. -/
def escape (c : Char) : List Char :=
  if c = '"' then ['\\', '"']
  else if c = '\\' then ['\\', '\\']
  else if c = '\x08' then ['\\', 'b']
  else if c = '\t' then ['\\', 't']
  else if c = '\n' then ['\\', 'n']
  else if c = '\x0c' then ['\\', 'f']
  else if c = '\r' then ['\\', 'r']
  else if c.toNat < 0x20 then
    ['\\', 'u', '0', '0', hexDigit (c.toNat / 16), hexDigit (c.toNat % 16)]
  else [c]

def quote (s : String) : List Char :=
  '"' :: (s.toList.flatMap escape ++ ['"'])

def NumberToken.render (t : NumberToken) : List Char :=
  (if t.negative then ['-'] else []) ++ t.integer ++
    (if t.fraction.isEmpty then [] else '.' :: t.fraction) ++
    match t.exponent with
    | none => []
    | some (negative, digits) => 'e' :: ((if negative then ['-'] else []) ++ digits)

def newline (depth : Nat) : List Char :=
  '\n' :: List.replicate (2 * depth) ' '

mutual

/-- The text of a value whose lines lie on level `depth`. -/
def render (depth : Nat) : Value → List Char
  | .null => ['n', 'u', 'l', 'l']
  | .bool true => ['t', 'r', 'u', 'e']
  | .bool false => ['f', 'a', 'l', 's', 'e']
  | .number token => token.render
  | .string s => quote s
  | .array [] => ['[', ']']
  | .array (v :: vs) =>
    '[' :: (newline (depth + 1) ++ render (depth + 1) v ++ renderElements (depth + 1) vs ++
      newline depth ++ [']'])
  | .object [] => ['{', '}']
  | .object ((key, v) :: members) =>
    '{' :: (newline (depth + 1) ++ quote key ++ [':', ' '] ++ render (depth + 1) v ++
      renderMembers (depth + 1) members ++ newline depth ++ ['}'])

def renderElements (depth : Nat) : List Value → List Char
  | [] => []
  | v :: vs => ',' :: (newline depth ++ render depth v ++ renderElements depth vs)

def renderMembers (depth : Nat) : List (String × Value) → List Char
  | [] => []
  | (key, v) :: members =>
    ',' :: (newline depth ++ quote key ++ [':', ' '] ++ render depth v ++
      renderMembers depth members)

end

def Value.print (v : Value) : String :=
  String.ofList (render 0 v)

end CursorState.Json
