import CursorState.Engine.Counting
import CursorState.Proofs.Resolution.ParsedText

/-! A query at the counting engine. Whichever way it ends, it has released all that it acquired. -/
namespace CursorState

namespace Ledger

/-- A session was held at `stop` for a parse that failed. -/
def afterFailedParse (l : Ledger) (stop : Point) : Ledger :=
  { l with
    sessionsOpened := l.sessionsOpened + 1
    sessionsReleased := l.sessionsReleased + 1
    lastStop := some stop
    lastMode := some .resolve }

/-- Moreover a tree of `parsed` was held and searched. -/
def afterAnswer (l : Ledger) (stop : Point) (parsed : List UInt8) : Ledger :=
  { l.afterFailedParse stop with
    treesCreated := l.treesCreated + 1
    treesReleased := l.treesReleased + 1
    lastParsed := parsed
    lastSearch := some stop }

end Ledger

def countingResolution (w : TabWidth) (text : List UInt8) (stop : Point) : Resolution :=
  ⟨countingAnswer (some (parsedText text stop w)), effectiveLength text stop w⟩

/-- Of all that the engine holds, the answer depends on the failure point alone. -/
theorem resolve_countingEngine (w : TabWidth) (text : List UInt8) (stop : Point)
    (v : CountingWorld) :
    (resolve countingEngine w text stop).run v =
      match v.failAt with
      | .session => (.error (.engine (.session "out of parsers")), v)
      | .parse => (.error (.engine (.parse "engine gave up")), v.record (·.afterFailedParse stop))
      | .nowhere =>
        (.ok (countingResolution w text stop),
          v.record (·.afterAnswer stop (parsedText text stop w))) := by
  obtain ⟨failAt, ledger⟩ := v
  cases failAt with
  | nowhere => rfl
  | session => rfl
  | parse => rfl

theorem resolve_countingEngine_start {w : TabWidth} {text : List UInt8} {stop : Point} {n : Nat}
    (h : effectiveLength text stop w = n) :
    ((resolve countingEngine w text stop).run .start).1 =
      .ok ⟨countingAnswer (some (text.take n)), n⟩ := by
  subst h
  rw [resolve_countingEngine]
  rfl

end CursorState
