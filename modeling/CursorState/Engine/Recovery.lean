import CursorState.StateId

/-! The answer of a state search, and how it was reached. -/
namespace CursorState

inductive RecoveryStrategy where
  /-- It is the state after the last token. -/
  | exact
  /-- Unusable tokens were skipped on the way back to it. -/
  | backtrack
  /-- Nothing was parsed: it is the start state. -/
  | initial
  /-- There is no usable state: it stands for none. -/
  | sentinel
  deriving DecidableEq, Repr, Inhabited

structure RecoveryLog where
  strategy : RecoveryStrategy
  skipped : UInt32
  deriving DecidableEq, Repr

namespace RecoveryLog

def standard : RecoveryLog := ⟨.exact, 0⟩

instance : Inhabited RecoveryLog := ⟨standard⟩

/-- The number of skipped tokens is shown only where it can tell something. -/
def display (log : RecoveryLog) : String :=
  match log.strategy with
  | .exact => "exact"
  | .backtrack => s!"backtrack (skipped {log.skipped.toNat})"
  | .initial => "initial"
  | .sentinel => s!"sentinel (skipped {log.skipped.toNat})"

end RecoveryLog

structure Found where
  state : StateId
  log : RecoveryLog
  deriving DecidableEq, Repr, Inhabited

namespace Found

def exact (state : StateId) : Found := ⟨state, .exact, 0⟩

def backtrack (state : StateId) (skipped : UInt32) : Found := ⟨state, .backtrack, skipped⟩

/-- The start state of every grammar is 1. -/
def initial : Found := ⟨.ofNat 1, .initial, 0⟩

/-- State 0 is no state of any grammar. -/
def sentinel : Found := ⟨.ofNat 0, .sentinel, 0⟩

end Found
end CursorState
