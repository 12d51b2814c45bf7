import CursorState.Engine.Automaton
import CursorState.Engine.Contract
import CursorState.Engine.ShiftRecord
import CursorState.Event

/-! An engine that answers from the log of its parser. Its world is the list of the events that it
reported. -/
namespace CursorState

/-- Of the messages of a log, only those about parsing count. -/
def ShiftRecord.observeMessage (r : ShiftRecord) (m : LogMessage) : ShiftRecord :=
  if m.kind = .parsing then r.observe m.line else r

/-- What is recorded of a parse, if it gives a tree. -/
def ParserRun.shifts? (r : ParserRun) : Option ShiftRecord :=
  if r.tree then some (r.log.foldl .observeMessage .empty) else none

structure LoggedSession where
  mode : ResolutionMode
  /-- The shifts of the last parse, if it gave a tree. -/
  shifts : Option ShiftRecord
  deriving DecidableEq, Repr

namespace LoggedSession

def fresh : LoggedSession := ⟨.resolve, none⟩

def found (s : LoggedSession) : Found :=
  match s.shifts with
  | none => .sentinel
  | some shifts => shifts.found

def searchEvents (s : LoggedSession) (stop : Point) : List Event :=
  (match s.mode with
    | .resolve => []
    | .discover => [⟨.trace, "tree-sitter resolves against static tables", []⟩]) ++
  (match s.shifts with
    | none => []
    | some shifts =>
      [⟨.trace, "closest recoverable state",
        [("stop", stop.display), ("state", shifts.found.state.display),
          ("log", shifts.found.log.display)]⟩])

end LoggedSession

/-- The engine of a grammar. The stop point is only reported: the text that is parsed ends there. -/
def loggedEngine (g : CompiledGrammar) : Engine where
  World := List Event
  Session := LoggedSession
  Tree := Unit
  openSession :=
    match g.automaton.refusal? with
    | some reason => return .error (.language s!"{g.name}: {reason}")
    | none => return .ok .fresh
  setStop s stop := do
    modify (· ++ [⟨.trace, "stop point bounds the parsed prefix", [("stop", stop.display)]⟩])
    return s
  setMode s mode := return ⟨mode, s.shifts⟩
  parse s text :=
    let run := g.automaton.parse text
    return (⟨s.mode, run.shifts?⟩, .ok (if run.tree then some () else none))
  find s stop := do
    modify (· ++ s.searchEvents stop)
    return s.found
  releaseTree _ := return ()
  releaseSession _ := return ()

end CursorState
