import CursorState.Engine.Logged
import CursorState.Grammar.StandIns
import CursorState.Resolution

/-! Queries on a compiled grammar, with the events that they report. -/
namespace CursorState

def CompiledGrammar.query (g : CompiledGrammar) (w : TabWidth) (text : List UInt8) (stop : Point) :
    Except QueryError Resolution × List Event :=
  let answer : Except QueryError Resolution × List Event :=
    (resolve (loggedEngine g) w text stop).run []
  match answer with
  | (.ok r, events) => (.ok r, events ++ [r.event text stop])
  | (.error e, events) => (.error e, events)

def Language.query (l : Language) (w : TabWidth) (text : List UInt8) (stop : Point) :
    Except QueryError Resolution × List Event :=
  l.grammar.query w text stop

end CursorState
