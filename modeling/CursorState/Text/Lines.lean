/-! Lines of a text. A line ends at any of eleven breaks, of which `\r\n` is one. -/
namespace CursorState.Text

/-- The characters that end a line. U+001F does not. -/
def isLineBreak (c : Char) : Bool :=
  c == '\n' || c == '\r' || c == '\x0b' || c == '\x0c' || c == '\x1c' || c == '\x1d' ||
    c == '\x1e' || c == '\u0085' || c == '\u2028' || c == '\u2029'

def consFirst (c : Char) : List (List Char) → List (List Char)
  | [] => [[c]]
  | line :: lines => (c :: line) :: lines

/-- The lines of a text without their breaks. Consecutive breaks enclose empty lines, and a break
at the end of the text starts no line. -/
def splitLines : List Char → List (List Char)
  | [] => []
  | '\r' :: '\n' :: cs => [] :: splitLines cs
  | c :: cs => if isLineBreak c then [] :: splitLines cs else consFirst c (splitLines cs)

end CursorState.Text
