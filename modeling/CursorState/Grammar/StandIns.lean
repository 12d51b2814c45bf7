import CursorState.Engine.Logged
import CursorState.Grammar.JsonAutomaton
import CursorState.Language

/-! Stand-ins for the automata of the default build, for runs of the library without the compiled
ones. The rules of JSON are known state by state. Of the others the number of states is known, and
that a blank text shifts nothing; their parsers give up on any other text. -/
namespace CursorState

namespace Grammar

def jsonRun (text : List UInt8) : ParserRun :=
  ⟨(jsonLog text).map (.mk .parsing), true⟩

def blankRun (text : List UInt8) : ParserRun :=
  ⟨[], text.all fun b => isBlankByte (Char.ofNat b.toNat)⟩

def standIns : Language → Automaton
  | .javascript => ⟨1870, none, blankRun⟩
  | .json => ⟨32, none, jsonRun⟩
  | .python => ⟨2788, none, blankRun⟩
  | .rust => ⟨6494, none, blankRun⟩

end Grammar

namespace Language

def grammar (l : Language) : CompiledGrammar :=
  l.compiled Grammar.standIns

def stateCount (l : Language) : Nat :=
  l.grammar.automaton.stateCount

def engine (l : Language) : Engine :=
  loggedEngine l.grammar

def renderAll (languages : List Language) : String :=
  CompiledGrammar.renderAll (languages.map grammar)

end Language
end CursorState
