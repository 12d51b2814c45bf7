import CursorState.Engine.Contract

/-! An engine that counts what is acquired and released. Its automaton is trivial: it starts in
state 1 and every byte leads to the next state, but `#` is an error token, and `!` spoils the whole
parse. -/
namespace CursorState

structure Ledger where
  sessionsOpened : Nat
  sessionsReleased : Nat
  treesCreated : Nat
  treesReleased : Nat
  lastStop : Option Point
  lastMode : Option ResolutionMode
  lastParsed : List UInt8
  lastSearch : Option Point
  deriving DecidableEq, Repr

namespace Ledger

def empty : Ledger := ⟨0, 0, 0, 0, none, none, [], none⟩

instance : Inhabited Ledger := ⟨empty⟩

def liveSessions (l : Ledger) : Nat :=
  l.sessionsOpened - l.sessionsReleased

def liveTrees (l : Ledger) : Nat :=
  l.treesCreated - l.treesReleased

end Ledger

inductive FailurePoint where
  | nowhere
  | session
  | parse
  deriving DecidableEq, Repr, Inhabited

structure CountingWorld where
  failAt : FailurePoint
  ledger : Ledger
  deriving DecidableEq, Repr

namespace CountingWorld

def start : CountingWorld := ⟨.nowhere, .empty⟩

def record (f : Ledger → Ledger) (w : CountingWorld) : CountingWorld :=
  ⟨w.failAt, f w.ledger⟩

end CountingWorld

/-- Whether parses fail is settled when the session is opened. -/
structure CountingSession where
  failsParse : Bool
  parsed : Option (List UInt8)
  deriving DecidableEq, Repr

def trailingErrors (text : List UInt8) : Nat :=
  (text.reverse.takeWhile (· == 0x23)).length

/-- The answer of a session that last parsed `parsed`. -/
def countingAnswer : Option (List UInt8) → Found
  | none => .sentinel
  | some [] => .initial
  | some text =>
    if text.contains 0x21 then .sentinel
    else
      let errors := trailingErrors text
      let state := StateId.ofNat (1 + (text.length - errors))
      if errors = 0 then .exact state else .backtrack state (UInt32.ofNat errors)

/-- The counting engine. A failed operation leaves no record. -/
def countingEngine : Engine where
  World := CountingWorld
  Session := CountingSession
  Tree := Unit
  openSession := do
    let w ← get
    if w.failAt = .session then return .error (.session "out of parsers")
    modify (·.record fun l => { l with sessionsOpened := l.sessionsOpened + 1 })
    return .ok ⟨w.failAt = .parse, none⟩
  setStop s stop := do
    modify (·.record fun l => { l with lastStop := some stop })
    return s
  setMode s mode := do
    modify (·.record fun l => { l with lastMode := some mode })
    return s
  parse s text := do
    if s.failsParse then return (s, .error (.parse "engine gave up"))
    modify (·.record fun l =>
      { l with lastParsed := text, treesCreated := l.treesCreated + 1 })
    return (⟨s.failsParse, some text⟩, .ok (some ()))
  find s stop := do
    modify (·.record fun l => { l with lastSearch := some stop })
    return countingAnswer s.parsed
  releaseTree _ := modify (·.record fun l => { l with treesReleased := l.treesReleased + 1 })
  releaseSession _ :=
    modify (·.record fun l => { l with sessionsReleased := l.sessionsReleased + 1 })

end CursorState
