import Mathlib.Data.List.Count
import CursorState.Proofs.Service.Call

/-! The ledger along a run of a service: balanced after every call, and its counts are those of the
calls that acquired a session and of the calls that were answered. -/
namespace CursorState

structure ServiceRecord where
  before : ServiceDesk
  step : ServiceStep
  answer : ServiceAnswer
  after : ServiceDesk

def ServiceAnswer.isAnswer : ServiceAnswer → Bool
  | resolution _ | state _ => true
  | failed _ | changed => false

namespace ServiceRecord

/-- A call whose arguments are in order, while opening a session does not fail. -/
def acquires (e : ServiceRecord) : Bool :=
  match e.step with
  | .call c => c.request?.isSome && e.before.world.failAt != .session
  | .tabWidth _ | .failAt _ => false

def answered (e : ServiceRecord) : Bool := e.answer.isAnswer

/-- A call ends in one of the four ways; a change of the configuration leaves the ledger alone. -/
def Accounted (e : ServiceRecord) : Prop :=
  match e.step with
  | .call c =>
    CallEnds e.before.tabWidth e.before.world.failAt c e.before.world.ledger e.answer
      e.after.world.ledger
  | .tabWidth _ | .failAt _ => e.answer = .changed ∧ e.after.world.ledger = e.before.world.ledger

end ServiceRecord

structure Ledger.Balanced (l : Ledger) : Prop where
  sessions : l.sessionsReleased = l.sessionsOpened
  trees : l.treesReleased = l.treesCreated

theorem Ledger.Balanced.liveSessions {l : Ledger} (h : l.Balanced) : l.liveSessions = 0 := by
  rw [Ledger.liveSessions, h.sessions, Nat.sub_self]

theorem Ledger.Balanced.liveTrees {l : Ledger} (h : l.Balanced) : l.liveTrees = 0 := by
  rw [Ledger.liveTrees, h.trees, Nat.sub_self]

namespace ServiceDesk

def run (d : ServiceDesk) : List ServiceStep → ServiceDesk
  | [] => d
  | s :: rest => (d.step s).2.run rest

def history (d : ServiceDesk) : List ServiceStep → List ServiceRecord
  | [] => []
  | s :: rest => ⟨d, s, (d.step s).1, (d.step s).2⟩ :: (d.step s).2.history rest

theorem step_accounted (d : ServiceDesk) (s : ServiceStep) :
    ServiceRecord.Accounted ⟨d, s, (d.step s).1, (d.step s).2⟩ := by
  cases s with
  | call c => exact call_ends d.tabWidth c d.world
  | tabWidth w => exact ⟨rfl, rfl⟩
  | failAt point => exact ⟨rfl, rfl⟩

theorem history_accounted (d : ServiceDesk) (steps : List ServiceStep) :
    ∀ e ∈ d.history steps, e.Accounted := by
  induction steps generalizing d with
  | nil => exact fun e he => absurd he List.not_mem_nil
  | cons s rest ih => exact List.forall_mem_cons.mpr ⟨d.step_accounted s, ih _⟩

end ServiceDesk

namespace CallEnds

variable {w : TabWidth} {point : FailurePoint} {c : ServiceCall} {l l' : Ledger}
  {answer : ServiceAnswer}

theorem balanced (h : CallEnds w point c l answer l') (hl : l.Balanced) : l'.Balanced := by
  cases h with
  | usage => exact hl
  | session => exact hl
  | parse => exact ⟨congrArg (· + 1) hl.sessions, hl.trees⟩
  | answered => exact ⟨congrArg (· + 1) hl.sessions, congrArg (· + 1) hl.trees⟩

theorem sessionsOpened (h : CallEnds w point c l answer l') :
    l'.sessionsOpened =
      l.sessionsOpened + if c.request?.isSome && point != .session then 1 else 0 := by
  cases h with
  | usage hc hargs => simp [hc, ServiceCall.request?, hargs, Except.toOption]
  | session hc hpoint => simp [hpoint]
  | parse hc hpoint =>
    rw [hc, hpoint]
    rfl
  | answered hc hpoint =>
    rw [hc, hpoint]
    rfl

theorem treesCreated (h : CallEnds w point c l answer l') :
    l'.treesCreated = l.treesCreated + if answer.isAnswer then 1 else 0 := by
  cases h with
  | usage => rfl
  | session => rfl
  | parse => rfl
  | answered => cases c <;> rfl

end CallEnds

namespace ServiceRecord.Accounted

variable {e : ServiceRecord}

theorem balanced (h : e.Accounted) (hb : e.before.world.ledger.Balanced) :
    e.after.world.ledger.Balanced := by
  obtain ⟨before, step, answer, after⟩ := e
  cases step with
  | call c => exact CallEnds.balanced h hb
  | tabWidth w => exact h.2.symm ▸ hb
  | failAt point => exact h.2.symm ▸ hb

theorem sessionsOpened (h : e.Accounted) :
    e.after.world.ledger.sessionsOpened =
      e.before.world.ledger.sessionsOpened + if e.acquires then 1 else 0 := by
  obtain ⟨before, step, answer, after⟩ := e
  cases step with
  | call c => exact CallEnds.sessionsOpened h
  | tabWidth w => exact congrArg Ledger.sessionsOpened h.2
  | failAt point => exact congrArg Ledger.sessionsOpened h.2

theorem treesCreated (h : e.Accounted) :
    e.after.world.ledger.treesCreated =
      e.before.world.ledger.treesCreated + if e.answered then 1 else 0 := by
  obtain ⟨before, step, answer, after⟩ := e
  cases step with
  | call c => exact CallEnds.treesCreated h
  | tabWidth w =>
    obtain ⟨rfl, hl⟩ := h
    exact congrArg Ledger.treesCreated hl
  | failAt point =>
    obtain ⟨rfl, hl⟩ := h
    exact congrArg Ledger.treesCreated hl

end ServiceRecord.Accounted

namespace ServiceDesk

theorem run_balanced (steps : List ServiceStep) {d : ServiceDesk} (h : d.world.ledger.Balanced) :
    (d.run steps).world.ledger.Balanced := by
  induction steps generalizing d with
  | nil => exact h
  | cons s rest ih => exact ih ((d.step_accounted s).balanced h)

theorem sessionsOpened_run (d : ServiceDesk) (steps : List ServiceStep) :
    (d.run steps).world.ledger.sessionsOpened =
      d.world.ledger.sessionsOpened + (d.history steps).countP ServiceRecord.acquires := by
  induction steps generalizing d with
  | nil => rfl
  | cons s rest ih =>
    have hstep := (d.step_accounted s).sessionsOpened
    simp only at hstep
    rw [run, ih, hstep, history, List.countP_cons]
    omega

theorem treesCreated_run (d : ServiceDesk) (steps : List ServiceStep) :
    (d.run steps).world.ledger.treesCreated =
      d.world.ledger.treesCreated + (d.history steps).countP ServiceRecord.answered := by
  induction steps generalizing d with
  | nil => rfl
  | cons s rest ih =>
    have hstep := (d.step_accounted s).treesCreated
    simp only at hstep
    rw [run, ih, hstep, history, List.countP_cons]
    omega

/-- After any run, hence after each of its calls, nothing is held, the counts tell how many calls
acquired a session and how many were answered, and each call did to the ledger what its end says. -/
theorem run_accounts (steps : List ServiceStep) :
    let ledger := (start.run steps).world.ledger
    let made := start.history steps
    ledger.Balanced ∧ ledger.liveSessions = 0 ∧ ledger.liveTrees = 0 ∧
      ledger.sessionsOpened = made.countP ServiceRecord.acquires ∧
      ledger.treesCreated = made.countP ServiceRecord.answered ∧
      ∀ e ∈ made, e.Accounted := by
  intro ledger made
  have hbalanced : ledger.Balanced := run_balanced steps ⟨rfl, rfl⟩
  have hsessions : ledger.sessionsOpened = 0 + made.countP ServiceRecord.acquires :=
    sessionsOpened_run start steps
  have htrees : ledger.treesCreated = 0 + made.countP ServiceRecord.answered :=
    treesCreated_run start steps
  rw [Nat.zero_add] at hsessions htrees
  exact ⟨hbalanced, hbalanced.liveSessions, hbalanced.liveTrees, hsessions, htrees,
    start.history_accounted steps⟩

end ServiceDesk
end CursorState
