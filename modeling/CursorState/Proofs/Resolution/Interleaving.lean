import Mathlib.Data.List.Count
import CursorState.Proofs.Resolution.Counting
import CursorState.Proofs.Resolution.Steps
import CursorState.Proofs.Service.Ledger

/-! Queries that share one engine, with their steps interleaved in any order. -/
namespace CursorState

structure QueryCall where
  task : QueryTask
  stage : Stage

structure QueryPool where
  world : CountingWorld
  calls : List QueryCall

namespace QueryPool

def start (w : CountingWorld) (tasks : List QueryTask) : QueryPool :=
  ⟨w, tasks.map (⟨·, .waiting⟩)⟩

def move (p : QueryPool) (i : Nat) : QueryPool :=
  match p.calls[i]? with
  | none => p
  | some c =>
    let (stage, world) := (c.task.step c.stage).run p.world
    ⟨world, p.calls.set i ⟨c.task, stage⟩⟩

/-- The calls make steps in the order of `schedule`. -/
def run (p : QueryPool) (schedule : List Nat) : QueryPool :=
  schedule.foldl move p

def count (p : QueryPool) (reached : Stage → Bool) : Nat :=
  p.calls.countP fun c => reached c.stage

variable (p : QueryPool) (i : Nat)

theorem move_cases :
    p.calls[i]? = none ∧ p.move i = p ∨
      ∃ c s w, p.calls[i]? = some c ∧ StepMade c.task c.stage p.world s w ∧
        p.move i = ⟨w, p.calls.set i ⟨c.task, s⟩⟩ := by
  cases hc : p.calls[i]? with
  | none => exact .inl ⟨rfl, by rw [move, hc]⟩
  | some c =>
    exact .inr ⟨c, _, _, rfl, c.task.step_made c.stage p.world, by rw [move, hc]; rfl⟩

theorem move_failAt : (p.move i).world.failAt = p.world.failAt := by
  obtain ⟨-, hmove⟩ | ⟨c, s, w, -, hstep, hmove⟩ := p.move_cases i
  · rw [hmove]
  · rw [hmove, hstep.failAt]

theorem move_call (j : Nat) :
    (p.move i).calls[j]? = p.calls[j]?.map fun c =>
      ⟨c.task, (c.task.next p.world.failAt)^[if i == j then 1 else 0] c.stage⟩ := by
  obtain ⟨hnone, hmove⟩ | ⟨c, s, w, hc, hstep, hmove⟩ := p.move_cases i
  · rw [hmove]
    by_cases hij : i = j
    · subst hij
      rw [hnone, Option.map_none]
    · simp [hij]
  · rw [hmove, List.getElem?_set]
    by_cases hij : i = j
    · subst hij
      have hi : i < p.calls.length := (List.getElem?_eq_some_iff.mp hc).1
      simp only [hi, hc, hstep.stage, ↓reduceIte, beq_self_eq_true, Option.map_some,
        Function.iterate_one]
    · simp [hij]

/-- Where a call stands tells the number of its own steps, whatever the others did between them. -/
theorem run_call (schedule : List Nat) :
    (p.run schedule).calls[i]? = p.calls[i]?.map fun c =>
      ⟨c.task, (c.task.next p.world.failAt)^[schedule.count i] c.stage⟩ := by
  induction schedule generalizing p with
  | nil => simp [run]
  | cons j rest ih =>
    have hrest := ih (p.move j)
    rw [move_failAt, move_call, Option.map_map] at hrest
    rw [run, List.foldl_cons, ← run, hrest]
    simp only [Function.comp_def, List.count_cons, Function.iterate_add_apply]

theorem run_calls (w : CountingWorld) (tasks : List QueryTask) (schedule : List Nat)
    (h : ∀ i < tasks.length, 8 ≤ schedule.count i) :
    ((start w tasks).run schedule).calls =
      tasks.map fun q => ⟨q, .done (q.resolve.run w).1⟩ := by
  refine List.ext_getElem? fun i => ?_
  rw [run_call, start, List.getElem?_map, List.getElem?_map, Option.map_map]
  cases hq : tasks[i]? with
  | none => rfl
  | some q =>
    have hcount := h i (List.getElem?_eq_some_iff.mp hq).1
    simp only [Option.map_some, Function.comp_apply, q.iterate_next_of_le w hcount]

/-- The ledger has counted the stages that the calls have passed, on top of `l`. -/
structure Tallied (l : Ledger) (p : QueryPool) : Prop where
  sessionsOpened : p.world.ledger.sessionsOpened = l.sessionsOpened + p.count Stage.acquired
  sessionsReleased :
    p.world.ledger.sessionsReleased = l.sessionsReleased + p.count Stage.released
  treesCreated : p.world.ledger.treesCreated = l.treesCreated + p.count Stage.gotTree
  treesReleased : p.world.ledger.treesReleased = l.treesReleased + p.count Stage.droppedTree

theorem start_tallied (w : CountingWorld) (tasks : List QueryTask) :
    (start w tasks).Tallied w.ledger := by
  have hnone (reached : Stage → Bool) (h : reached .waiting = false) :
      (start w tasks).count reached = 0 := by
    simp [start, count, h]
  exact {
    sessionsOpened := by rw [hnone _ rfl]; rfl
    sessionsReleased := by rw [hnone _ rfl]; rfl
    treesCreated := by rw [hnone _ rfl]; rfl
    treesReleased := by rw [hnone _ rfl]; rfl }

theorem ite_eq_toNat (b : Bool) : (if b then 1 else 0) = b.toNat := by
  cases b <;> rfl

theorem count_set {p : QueryPool} {i : Nat} {c : QueryCall} (hc : p.calls[i]? = some c)
    (w : CountingWorld) (q : QueryTask) (s : Stage) (reached : Stage → Bool) :
    (⟨w, p.calls.set i ⟨q, s⟩⟩ : QueryPool).count reached + (reached c.stage).toNat =
      p.count reached + (reached s).toNat := by
  obtain ⟨hi, rfl⟩ := List.getElem?_eq_some_iff.mp hc
  have hle := List.boole_getElem_le_countP (p := fun c : QueryCall => reached c.stage) hi
  simp only [count, List.countP_set hi, ite_eq_toNat] at hle ⊢
  omega

theorem Tallied.move {l : Ledger} {p : QueryPool} (h : p.Tallied l) (i : Nat) :
    (p.move i).Tallied l := by
  obtain ⟨-, hmove⟩ | ⟨c, s, w, hc, hstep, hmove⟩ := p.move_cases i
  · rwa [hmove]
  · -- What the ledger has gained is what the count has gained.
    have hgain {reached : Stage → Bool} {before after first : Nat}
        (hstep : after + (reached c.stage).toNat = before + (reached s).toNat)
        (hbefore : before = first + p.count reached) :
        after = first + (⟨w, p.calls.set i ⟨c.task, s⟩⟩ : QueryPool).count reached := by
      have hcount := count_set hc w c.task s reached
      omega
    rw [hmove]
    exact {
      sessionsOpened := hgain hstep.sessionsOpened h.sessionsOpened
      sessionsReleased := hgain hstep.sessionsReleased h.sessionsReleased
      treesCreated := hgain hstep.treesCreated h.treesCreated
      treesReleased := hgain hstep.treesReleased h.treesReleased }

theorem Tallied.run {l : Ledger} {p : QueryPool} (h : p.Tallied l) (schedule : List Nat) :
    (p.run schedule).Tallied l := by
  induction schedule generalizing p with
  | nil => exact h
  | cons i rest ih => exact ih (h.move i)

variable (p : QueryPool)

theorem count_eq_add {whole left right : Stage → Bool}
    (h : ∀ s, (whole s).toNat = (left s).toNat + (right s).toNat) :
    p.count whole = p.count left + p.count right := by
  obtain ⟨world, calls⟩ := p
  induction calls with
  | nil => rfl
  | cons c rest ih =>
    simp only [count, List.countP_cons, ite_eq_toNat] at ih ⊢
    have hc := h c.stage
    omega

theorem count_le_count {fewer more : Stage → Bool} (h : ∀ s, fewer s → more s) :
    p.count fewer ≤ p.count more :=
  List.countP_mono_left fun c _ => h c.stage

namespace Tallied

variable {l : Ledger} {p : QueryPool} (h : p.Tallied l) (hl : l.Balanced)

include h hl

theorem sessionsOpened_eq :
    p.world.ledger.sessionsOpened = p.world.ledger.sessionsReleased + p.count Stage.inFlight := by
  rw [h.sessionsOpened, h.sessionsReleased, hl.sessions, p.count_eq_add Stage.acquired_eq,
    Nat.add_assoc]

theorem treesCreated_eq :
    p.world.ledger.treesCreated = p.world.ledger.treesReleased + p.count Stage.holdsTree := by
  rw [h.treesCreated, h.treesReleased, hl.trees, p.count_eq_add Stage.gotTree_eq, Nat.add_assoc]

theorem liveSessions : p.world.ledger.liveSessions = p.count Stage.inFlight := by
  rw [Ledger.liveSessions, h.sessionsOpened_eq hl, Nat.add_sub_cancel_left]

theorem liveTrees : p.world.ledger.liveTrees = p.count Stage.holdsTree := by
  rw [Ledger.liveTrees, h.treesCreated_eq hl, Nat.add_sub_cancel_left]

theorem balanced (hdone : p.count Stage.inFlight = 0) : p.world.ledger.Balanced where
  sessions := by rw [h.sessionsOpened_eq hl, hdone, Nat.add_zero]
  trees := by
    have hle := p.count_le_count Stage.inFlight_of_holdsTree
    have hnone : p.count Stage.holdsTree = 0 := by omega
    rw [h.treesCreated_eq hl, hnone, Nat.add_zero]

end Tallied

/-- Interleaved queries do not see each other: whatever the order of their steps, a call comes to
its end and returns what it returns alone at any ledger. At every moment no more is released than
was acquired, the trees are no more than the sessions, and there is one session for each call in
flight at most. When all calls have returned, nothing is held. -/
theorem interleaved_calls (w : CountingWorld) (hw : w.ledger.Balanced) (tasks : List QueryTask)
    (schedule : List Nat) :
    let p := (start w tasks).run schedule
    let l := p.world.ledger
    (∀ i q, tasks[i]? = some q → ∃ s, p.calls[i]? = some ⟨q, s⟩ ∧
      (8 ≤ schedule.count i → ∃ result, s = .done result) ∧
      ∀ result, s = .done result → ∀ alone : Ledger,
        result = (q.resolve.run ⟨w.failAt, alone⟩).1) ∧
    l.sessionsReleased ≤ l.sessionsOpened ∧ l.treesReleased ≤ l.treesCreated ∧
    l.liveTrees ≤ l.liveSessions ∧ l.liveSessions ≤ p.count Stage.inFlight ∧
    ((∀ c ∈ p.calls, ∃ result, c.stage = .done result) →
      l.Balanced ∧ l.sessionsOpened = w.ledger.sessionsOpened + p.count Stage.acquired) := by
  intro p l
  have htally : p.Tallied w.ledger := (start_tallied w tasks).run schedule
  refine ⟨fun i q hq => ?_, ?_, ?_, ?_, ?_, fun hdone => ⟨htally.balanced hw ?_, ?_⟩⟩
  · refine ⟨(q.next w.failAt)^[schedule.count i] .waiting, ?_, fun hcount => ?_, ?_⟩
    · rw [run_call, start, List.getElem?_map, hq]
      rfl
    · exact ⟨_, q.iterate_next_of_le w hcount⟩
    · exact fun result hresult alone => q.resolve_of_iterate_next ⟨w.failAt, alone⟩ hresult
  · exact Nat.le.intro (htally.sessionsOpened_eq hw).symm
  · exact Nat.le.intro (htally.treesCreated_eq hw).symm
  · calc l.liveTrees = p.count Stage.holdsTree := htally.liveTrees hw
      _ ≤ p.count Stage.inFlight := p.count_le_count Stage.inFlight_of_holdsTree
      _ = l.liveSessions := (htally.liveSessions hw).symm
  · exact Nat.le_of_eq (htally.liveSessions hw)
  · refine List.countP_eq_zero.mpr fun c hc => ?_
    obtain ⟨result, hresult⟩ := hdone c hc
    simp [hresult, Stage.inFlight]
  · exact htally.sessionsOpened

/-- Two queries that take turns. -/
theorem interleaved_calls_two :
    CountingWorld.start.ledger.Balanced ∧
      let q : QueryTask := ⟨.standard, [0x61, 0x62], ⟨1, 2⟩⟩
      let q' : QueryTask := ⟨.standard, [0x61, 0x23, 0x23], ⟨1, 4⟩⟩
      let p := (start .start [q, q']).run [0, 1, 1, 0, 0, 1, 0, 1, 1, 0, 0, 1, 1, 0, 0, 1]
      p.calls =
          [⟨q, .done (.ok (countingResolution q.tabWidth q.text q.stop))⟩,
            ⟨q', .done (.ok (countingResolution q'.tabWidth q'.text q'.stop))⟩] ∧
        p.world.ledger.Balanced ∧ p.world.ledger.sessionsOpened = 2 := by
  have hempty : CountingWorld.start.ledger.Balanced := ⟨rfl, rfl⟩
  refine ⟨hempty, ?_⟩
  intro q q'
  have hresult (q : QueryTask) : (q.resolve.run .start).1 =
      .ok (countingResolution q.tabWidth q.text q.stop) := by
    have hrun := resolve_countingEngine q.tabWidth q.text q.stop .start
    exact congrArg Prod.fst hrun
  have hcalls := run_calls .start [q, q']
    [0, 1, 1, 0, 0, 1, 0, 1, 1, 0, 0, 1, 1, 0, 0, 1] (by decide)
  obtain ⟨-, -, -, -, -, hend⟩ := interleaved_calls .start hempty [q, q']
    [0, 1, 1, 0, 0, 1, 0, 1, 1, 0, 0, 1, 1, 0, 0, 1]
  -- Nothing but the calls is needed of the pool, and unfolding its steps again would take long.
  generalize (start .start [q, q']).run _ = p at hcalls hend ⊢
  simp only [List.map_cons, List.map_nil, hresult] at hcalls
  obtain ⟨hbalanced, hopened⟩ := hend (by simp [hcalls])
  have hacquired : p.count Stage.acquired = 2 := by
    rw [count, hcalls]
    rfl
  exact ⟨hcalls, hbalanced, by rw [hopened, hacquired]; rfl⟩

end QueryPool
end CursorState
