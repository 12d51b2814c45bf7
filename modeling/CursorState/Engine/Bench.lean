import CursorState.Engine.Counting
import CursorState.Engine.Holder

/-! A holder at the counting engine, together with what the engine recorded. -/
namespace CursorState

structure Bench where
  world : CountingWorld
  holder : Holder countingEngine

inductive BenchStep where
  /-- From now on opened sessions fail here. -/
  | failAt (point : FailurePoint)
  | hold (step : HolderStep)
  deriving DecidableEq, Repr

namespace Bench

def start : Bench := ⟨.start, .empty⟩

def step (b : Bench) : BenchStep → HolderAnswer × Bench
  | .failAt point => (.done, ⟨⟨point, b.world.ledger⟩, b.holder⟩)
  | .hold s =>
    let ((answer, holder), world) := (b.holder.step s).run b.world
    (answer, ⟨world, holder⟩)

end Bench
end CursorState
