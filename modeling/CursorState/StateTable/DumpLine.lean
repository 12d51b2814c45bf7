import CursorState.Text.Blank
import CursorState.Text.DecimalDigit

/-! The lines of a textual state dump: `State 12` opens a state, `[T, ID, NT, Expr] : 3` is an item
of it, and everything else is ignored. -/
namespace CursorState
open Text

inductive DumpLine where
  | header (digits : List Char)
  | item (inner digits : List Char)
  | other
  deriving DecidableEq, Repr

namespace DumpLine

/-- The digits of a text that holds a number and perhaps blanks around it. -/
def number? (cs : List Char) : Option (List Char) :=
  let (digits, rest) := (dropBlank cs).span isDecimalDigit
  if digits ≠ [] ∧ rest.all isBlank then some digits else none

/-- The digits of a header. At least one blank must stand before them. -/
def header? (line : List Char) : Option (List Char) :=
  match dropBlank line with
  | 'S' :: 't' :: 'a' :: 't' :: 'e' :: c :: rest => if isBlank c then number? rest else none
  | _ => none

def splitAtLastBracket (cs : List Char) : Option (List Char × List Char) :=
  match cs.reverse.span (· ≠ ']') with
  | (after, _ :: before) => some (before.reverse, after.reverse)
  | (_, []) => none

/-- What stands between the brackets of an item, and its digits. -/
def item? (line : List Char) : Option (List Char × List Char) :=
  match dropBlank line with
  | '[' :: rest => do
    let (inner, tail) ← splitAtLastBracket rest
    match dropBlank tail with
    | ':' :: tail => return (inner, ← number? tail)
    | _ => none
  | _ => none

def ofChars (line : List Char) : DumpLine :=
  match header? line with
  | some digits => .header digits
  | none =>
    match item? line with
    | some (inner, digits) => .item inner digits
    | none => .other

end DumpLine
end CursorState
