/-! Compiled grammars. Their automata come from elsewhere, and all that is known of one of them is
what a parser does with it. -/
namespace CursorState

/-- What a parser logs a message about: the tokens that it reads, or what it does with them. -/
inductive LogKind where
  | lexing
  | parsing
  deriving DecidableEq, Repr

structure LogMessage where
  kind : LogKind
  line : String
  deriving DecidableEq, Repr

/-- One parse: the messages, in order, and whether it ends with a tree. -/
structure ParserRun where
  log : List LogMessage
  tree : Bool
  deriving DecidableEq, Repr

structure Automaton where
  stateCount : Nat
  /-- Why a parser does not load the automaton, if it does not. -/
  refusal? : Option String
  /-- What a parser that has loaded the automaton does with a text. -/
  parse : List UInt8 → ParserRun

/-- An automaton under the name of its language. -/
structure CompiledGrammar where
  name : String
  automaton : Automaton

def CompiledGrammar.renderAll (grammars : List CompiledGrammar) : String :=
  s!"Supported languages ({grammars.length}):\n" ++
    String.join (grammars.map fun g => s!"  {g.name} ({g.automaton.stateCount} states)\n")

end CursorState
