import Mathlib.Logic.Function.Iterate
import CursorState.Engine.Counting
import CursorState.Proofs.Resolution.ParsedText

/-! A query at the counting engine, step by step. No step touches more than one field of the ledger,
and all steps one after the other are the query. -/
namespace CursorState

structure QueryTask where
  tabWidth : TabWidth
  text : List UInt8
  stop : Point

inductive Stage where
  | waiting
  | opened (session : CountingSession)
  | stopSet (session : CountingSession)
  | modeSet (session : CountingSession)
  /-- The text is recorded, but the tree is not counted yet. -/
  | textRecorded (session : CountingSession)
  | parsed (session : CountingSession)
  | refused (session : CountingSession) (reason : String)
  | searched (session : CountingSession) (found : Found)
  | treeReleased (session : CountingSession) (found : Found)
  | done (result : Except QueryError Resolution)

namespace Stage

def inFlight : Stage → Bool
  | waiting | done _ => false
  | _ => true

/-- A session was opened for it, whether or not it is released by now. -/
def acquired : Stage → Bool
  | waiting | done (.error (.engine (.session _))) => false
  | _ => true

def released (s : Stage) : Bool := s.acquired && !s.inFlight

/-- A tree was made for it, whether or not it is released by now. -/
def gotTree : Stage → Bool
  | parsed _ | searched _ _ | treeReleased _ _ | done (.ok _) => true
  | _ => false

def holdsTree : Stage → Bool
  | parsed _ | searched _ _ => true
  | _ => false

def droppedTree (s : Stage) : Bool := s.gotTree && !s.holdsTree

theorem acquired_eq (s : Stage) : s.acquired.toNat = s.released.toNat + s.inFlight.toNat := by
  cases s with
  | done result => simp [released, inFlight]
  | _ => rfl

theorem gotTree_eq (s : Stage) : s.gotTree.toNat = s.droppedTree.toNat + s.holdsTree.toNat := by
  cases s with
  | done result => simp [droppedTree, holdsTree]
  | _ => rfl

theorem inFlight_of_holdsTree (s : Stage) (h : s.holdsTree) : s.inFlight := by
  cases s with
  | parsed | searched => rfl
  | _ => cases h

end Stage

namespace QueryTask

variable (q : QueryTask)

def resolve : StateM CountingWorld (Except QueryError Resolution) :=
  CursorState.resolve countingEngine q.tabWidth q.text q.stop

/-- One step. A parse that succeeds takes two, since it changes two fields of the ledger. -/
def step : Stage → StateM CountingWorld Stage
  | .waiting => do
    match ← countingEngine.openSession with
    | .error e => return .done (.error (.engine e))
    | .ok session => return .opened session
  | .opened session => do
    let session ← countingEngine.setStop session q.stop
    return .stopSet session
  | .stopSet session => do
    let session ← countingEngine.setMode session .resolve
    return .modeSet session
  | .modeSet session => do
    if session.failsParse then return .refused session "engine gave up"
    modify (·.record fun l => { l with lastParsed := parsedText q.text q.stop q.tabWidth })
    return .textRecorded ⟨session.failsParse, some (parsedText q.text q.stop q.tabWidth)⟩
  | .textRecorded session => do
    modify (·.record fun l => { l with treesCreated := l.treesCreated + 1 })
    return .parsed session
  | .parsed session => do
    let found ← countingEngine.find session q.stop
    return .searched session found
  | .searched session found => do
    countingEngine.releaseTree ()
    return .treeReleased session found
  | .treeReleased session found => do
    countingEngine.releaseSession session
    return .done (.ok ⟨found, effectiveLength q.text q.stop q.tabWidth⟩)
  | .refused session reason => do
    countingEngine.releaseSession session
    return .done (.error (.engine (.parse reason)))
  | .done result => return .done result

def steps : Nat → Stage → StateM CountingWorld Stage
  | 0, s => return s
  | n + 1, s => do steps n (← q.step s)

theorem steps_eq_resolve (w : CountingWorld) :
    (q.steps 8 .waiting).run w = (.done (q.resolve.run w).1, (q.resolve.run w).2) := by
  obtain ⟨failAt, ledger⟩ := w
  cases failAt with
  | nowhere => rfl
  | session => rfl
  | parse => rfl

/-- The stage after `s`, which depends on the failure point alone. -/
def next (point : FailurePoint) (s : Stage) : Stage :=
  ((q.step s).run ⟨point, .empty⟩).1

end QueryTask

/-- What a step that leads from `s` and `w` to `s'` and `w'` does: whenever a stage is passed that
some field of the ledger counts, that field grows by one. -/
structure StepMade (q : QueryTask) (s : Stage) (w : CountingWorld) (s' : Stage)
    (w' : CountingWorld) : Prop where
  stage : s' = q.next w.failAt s
  failAt : w'.failAt = w.failAt
  sessionsOpened : w'.ledger.sessionsOpened + s.acquired.toNat =
    w.ledger.sessionsOpened + s'.acquired.toNat
  sessionsReleased : w'.ledger.sessionsReleased + s.released.toNat =
    w.ledger.sessionsReleased + s'.released.toNat
  treesCreated : w'.ledger.treesCreated + s.gotTree.toNat =
    w.ledger.treesCreated + s'.gotTree.toNat
  treesReleased : w'.ledger.treesReleased + s.droppedTree.toNat =
    w.ledger.treesReleased + s'.droppedTree.toNat

namespace QueryTask

variable (q : QueryTask) (s : Stage) (w : CountingWorld)

theorem step_made : StepMade q s w ((q.step s).run w).1 ((q.step s).run w).2 := by
  -- Only opening a session and parsing can go in two ways.
  obtain ⟨failAt, ledger⟩ := w
  cases s with
  | waiting => cases failAt <;> exact ⟨rfl, rfl, rfl, rfl, rfl, rfl⟩
  | modeSet session =>
    obtain ⟨failsParse, parsed⟩ := session
    cases failsParse <;> exact ⟨rfl, rfl, rfl, rfl, rfl, rfl⟩
  | _ => exact ⟨rfl, rfl, rfl, rfl, rfl, rfl⟩

theorem steps_stage (n : Nat) : ((q.steps n s).run w).1 = (q.next w.failAt)^[n] s := by
  induction n generalizing s w with
  | zero => rfl
  | succ n ih =>
    calc ((q.steps (n + 1) s).run w).1
        = ((q.steps n ((q.step s).run w).1).run ((q.step s).run w).2).1 := rfl
      _ = (q.next w.failAt)^[n] (q.next w.failAt s) := by
        rw [ih, (q.step_made s w).failAt, ← (q.step_made s w).stage]

/-- A query that has made eight steps has returned what it returns at any ledger. -/
theorem iterate_next_of_le {n : Nat} (hn : 8 ≤ n) :
    (q.next w.failAt)^[n] .waiting = .done (q.resolve.run w).1 := by
  obtain ⟨m, rfl⟩ := Nat.exists_eq_add_of_le' hn
  have height : (q.next w.failAt)^[8] .waiting = .done (q.resolve.run w).1 := by
    rw [← steps_stage, steps_eq_resolve]
  rw [Function.iterate_add_apply, height]
  exact Function.iterate_fixed rfl m

theorem resolve_of_iterate_next {n : Nat} {result : Except QueryError Resolution}
    (h : (q.next w.failAt)^[n] .waiting = .done result) : result = (q.resolve.run w).1 := by
  have hlater : (q.next w.failAt)^[8 + n] .waiting = .done result := by
    rw [Function.iterate_add_apply, h]
    exact Function.iterate_fixed rfl 8
  rw [iterate_next_of_le q w (Nat.le_add_right 8 n)] at hlater
  exact Stage.done.inj hlater.symm

end QueryTask

end CursorState
