import CursorState.Text.EditDistance
import CursorState.Text.LowerCase

/-! The languages that can be built in, by their names. A build enables some of them. -/
namespace CursorState
open Text

inductive Builtin where
  | bash
  | c
  | go
  | javascript
  | json
  | lua
  | python
  | rust
  deriving DecidableEq, Repr

namespace Builtin

def name : Builtin → String
  | bash => "bash"
  | c => "c"
  | go => "go"
  | javascript => "javascript"
  | json => "json"
  | lua => "lua"
  | python => "python"
  | rust => "rust"

def names : Builtin → List String
  | bash => ["bash", "sh", "shell"]
  | c => ["c"]
  | go => ["go", "golang"]
  | javascript => ["javascript", "js", "jsx", "ecmascript", "es"]
  | json => ["json"]
  | lua => ["lua"]
  | python => ["python", "py"]
  | rust => ["rust", "rs"]

def extensions : Builtin → List String
  | bash => ["sh", "bash", "zsh"]
  | c => ["c", "h"]
  | go => ["go"]
  | javascript => ["js", "mjs", "cjs", "jsx"]
  | json => ["json"]
  | lua => ["lua"]
  | python => ["py", "pyi", "pyw"]
  | rust => ["rs"]

/-- Whether a language goes by a name, in lower or upper case of ASCII. -/
def goesBy (l : Builtin) (s : String) : Bool :=
  l.names.contains (asciiLowerCase s)

def hasExtension (l : Builtin) (s : String) : Bool :=
  l.extensions.contains (asciiLowerCase s)

def ofName? (enabled : List Builtin) (s : String) : Option Builtin :=
  enabled.find? (·.goesBy s)

def suggestionDistance : Nat := 2

/-- Smaller distance first, then the name that comes first in the alphabet. -/
def betterCandidate (a b : Nat × String) : Nat × String :=
  if b.1 < a.1 ∨ b.1 = a.1 ∧ b.2 < a.2 then b else a

def bestCandidate : List (Nat × String) → Option (Nat × String)
  | [] => none
  | a :: rest => some (rest.foldl betterCandidate a)

def candidates (enabled : List Builtin) (input : List Char) : List (Nat × String) :=
  (enabled.map fun l => (editDistance l.name.toList input, l.name)).filter fun c =>
    c.1 ≤ suggestionDistance

def nearest? (enabled : List Builtin) (input : List Char) : Option String :=
  (bestCandidate (candidates enabled input)).map Prod.snd

/-- The name that may have been meant by a text, which `lower` brings into lower case. -/
def suggest? (lower : List Char → List Char) (enabled : List Builtin) (s : String) :
    Option String :=
  nearest? enabled (lower s.toList)

end Builtin
end CursorState
