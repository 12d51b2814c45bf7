import CursorState.Text.Blank

/-! The key of an item: its symbols without the markers of terminals and nonterminals. -/
namespace CursorState
open Text

def splitCommas : List Char → List (List Char)
  | [] => [[]]
  | ',' :: cs => [] :: splitCommas cs
  | c :: cs =>
    match splitCommas cs with
    | [] => [[c]]
    | part :: parts => (c :: part) :: parts

/-- `T` marks a terminal, `NT` a nonterminal. -/
def isMarker (part : List Char) : Bool :=
  part == ['T'] || part == ['N', 'T']

def symbols (inner : List Char) : List (List Char) :=
  ((splitCommas inner).map trim).filter fun part => !part.isEmpty && !isMarker part

/-- Symbols in brackets, with a comma and a blank between them. -/
def keyOfSymbols (parts : List (List Char)) : List Char :=
  '[' :: ([',', ' '].intercalate parts ++ [']'])

def normalizeKey (inner : List Char) : List Char :=
  keyOfSymbols (symbols inner)

end CursorState
