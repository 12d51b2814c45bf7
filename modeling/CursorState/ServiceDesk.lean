import CursorState.Engine.Counting
import CursorState.Service

/-! A query service over the counting engine, whose tab width and failure point may change between
calls. -/
namespace CursorState

inductive ServiceCall where
  | resolve (text : List UInt8) (stop : Point)
  | stateAt (text : List UInt8) (stop : Point)
  | arguments (args : List Json.Value)

inductive ServiceStep where
  | call (c : ServiceCall)
  | tabWidth (w : TabWidth)
  | failAt (point : FailurePoint)

inductive ServiceAnswer where
  | resolution (r : Resolution)
  | state (s : StateId)
  | failed (error : QueryError)
  /-- The answer to a change of the configuration. -/
  | changed
  deriving DecidableEq, Repr

def ServiceAnswer.ofResult {α : Type} (f : α → ServiceAnswer) : Except QueryError α → ServiceAnswer
  | .ok a => f a
  | .error e => .failed e

structure ServiceDesk where
  tabWidth : TabWidth
  world : CountingWorld

namespace ServiceDesk

def start : ServiceDesk := ⟨.standard, .start⟩

def call (w : TabWidth) : ServiceCall → StateM CountingWorld ServiceAnswer
  | .resolve text stop => do
    return ServiceAnswer.ofResult .resolution (← CursorState.resolve countingEngine w text stop)
  | .stateAt text stop => do
    return ServiceAnswer.ofResult .state (← stateAt countingEngine w text stop)
  | .arguments args => do
    return ServiceAnswer.ofResult .state (← stateOfArguments countingEngine w args)

def step (d : ServiceDesk) : ServiceStep → ServiceAnswer × ServiceDesk
  | .call c =>
    let (answer, world) := (call d.tabWidth c).run d.world
    (answer, ⟨d.tabWidth, world⟩)
  | .tabWidth w => (.changed, ⟨w, d.world⟩)
  | .failAt point => (.changed, ⟨d.tabWidth, ⟨point, d.world.ledger⟩⟩)

end ServiceDesk
end CursorState
