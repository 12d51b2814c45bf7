import CursorState.Builtin
import CursorState.Engine.Automaton

/-! The languages of the default build. -/
namespace CursorState

inductive Language where
  | javascript
  | json
  | python
  | rust
  deriving DecidableEq, Repr

namespace Language

def all : List Language := [javascript, json, python, rust]

def builtin : Language → Builtin
  | javascript => .javascript
  | json => .json
  | python => .python
  | rust => .rust

def name (l : Language) : String :=
  l.builtin.name

def ofName? (s : String) : Option Language :=
  all.find? (·.builtin.goesBy s)

def ofExtension? (s : String) : Option Language :=
  all.find? (·.builtin.hasExtension s)

def unknownMessage (s : String) : String :=
  s!"unknown language: '{s}'"

def suggest? (s : String) : Option String :=
  Builtin.suggest? Text.lowerCase (all.map builtin) s

def compiled (automata : Language → Automaton) (l : Language) : CompiledGrammar :=
  ⟨l.name, automata l⟩

end Language
end CursorState
