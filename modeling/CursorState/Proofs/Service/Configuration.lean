import CursorState.Proofs.Service.Ledger

/-! A service that was used before: what it answers depends on the tab width and the failure point in
force, whatever was called until then and however those calls ended. -/
namespace CursorState

namespace ServiceStep

def tabWidth? : ServiceStep → Option TabWidth
  | tabWidth w => some w
  | call _ | failAt _ => none

def failAt? : ServiceStep → Option FailurePoint
  | failAt point => some point
  | call _ | tabWidth _ => none

end ServiceStep

/-- The tab width set last, or the standard one. -/
def tabWidthInForce (steps : List ServiceStep) : TabWidth :=
  (steps.filterMap ServiceStep.tabWidth?).getLastD .standard

/-- The failure point set last, or none. -/
def failAtInForce (steps : List ServiceStep) : FailurePoint :=
  (steps.filterMap ServiceStep.failAt?).getLastD .nowhere

namespace ServiceDesk

def fresh (w : TabWidth) (point : FailurePoint) : ServiceDesk := ⟨w, ⟨point, .empty⟩⟩

def answers (d : ServiceDesk) (steps : List ServiceStep) : List ServiceAnswer :=
  (d.history steps).map ServiceRecord.answer

/-- The same configuration; the ledgers may hold anything. -/
structure SameConfiguration (d d' : ServiceDesk) : Prop where
  tabWidth : d.tabWidth = d'.tabWidth
  failAt : d.world.failAt = d'.world.failAt

theorem call_of_request_none (w : TabWidth) {c : ServiceCall} (h : c.request? = none) :
    ∃ answer, call w c = pure answer := by
  cases c with
  | resolve text stop => cases h
  | stateAt text stop => cases h
  | arguments args =>
    simp only [ServiceCall.request?] at h
    cases hargs : readArguments args with
    | ok request =>
      rw [hargs] at h
      cases h
    | error fault => exact ⟨_, call_arguments_of_error hargs⟩

theorem call_answer_congr (w : TabWidth) (c : ServiceCall) {v v' : CountingWorld}
    (h : v.failAt = v'.failAt) : ((call w c).run v).1 = ((call w c).run v').1 := by
  cases hc : c.request? with
  | none =>
    obtain ⟨answer, hcall⟩ := call_of_request_none w hc
    rw [hcall]
    rfl
  | some request =>
    obtain ⟨text, stop⟩ := request
    rw [call_of_request hc, call_of_request hc, resolve_countingEngine, resolve_countingEngine, h]
    cases v'.failAt <;> rfl

theorem failAt_call (w : TabWidth) (c : ServiceCall) (v : CountingWorld) :
    ((call w c).run v).2.failAt = v.failAt := by
  cases hc : c.request? with
  | none =>
    obtain ⟨answer, hcall⟩ := call_of_request_none w hc
    rw [hcall]
    rfl
  | some request =>
    obtain ⟨text, stop⟩ := request
    rw [call_of_request hc, resolve_countingEngine]
    cases hpoint : v.failAt <;> exact hpoint

theorem SameConfiguration.step {d d' : ServiceDesk} (h : d.SameConfiguration d')
    (s : ServiceStep) :
    (d.step s).1 = (d'.step s).1 ∧ (d.step s).2.SameConfiguration (d'.step s).2 := by
  obtain ⟨w, v⟩ := d
  obtain ⟨w', v'⟩ := d'
  obtain ⟨rfl, hpoint⟩ := h
  cases s with
  | call c =>
    refine ⟨call_answer_congr w c hpoint, rfl, ?_⟩
    exact (failAt_call w c v).trans (hpoint.trans (failAt_call w c v').symm)
  | tabWidth w' => exact ⟨rfl, rfl, hpoint⟩
  | failAt point => exact ⟨rfl, rfl, rfl⟩

/-- From then on, services of one configuration cannot be told apart. -/
theorem SameConfiguration.answers_eq {d d' : ServiceDesk} (h : d.SameConfiguration d')
    (steps : List ServiceStep) : d.answers steps = d'.answers steps := by
  induction steps generalizing d d' with
  | nil => rfl
  | cons s rest ih =>
    obtain ⟨hanswer, hnext⟩ := h.step s
    exact congrArg₂ List.cons hanswer (ih hnext)

/-- What each step sets or else leaves alone is after a run as it was set last. -/
theorem field_run {α : Type} {field : ServiceDesk → α} {set? : ServiceStep → Option α}
    (hstep : ∀ d s, field (d.step s).2 = (set? s).getD (field d)) (d : ServiceDesk)
    (steps : List ServiceStep) :
    field (d.run steps) = (steps.filterMap set?).getLastD (field d) := by
  -- on the steps, for any desk: what the first one leaves is what the others start from
  induction steps generalizing d with
  | nil => rfl
  | cons s rest ih =>
    rw [run, ih, hstep]
    cases hs : set? s with
    | none => rw [List.filterMap_cons_none hs, Option.getD_none]
    | some a => rw [List.filterMap_cons_some hs, List.getLastD_cons, Option.getD_some]

theorem tabWidth_step (d : ServiceDesk) (s : ServiceStep) :
    (d.step s).2.tabWidth = s.tabWidth?.getD d.tabWidth := by
  cases s <;> rfl

theorem failAt_step (d : ServiceDesk) (s : ServiceStep) :
    (d.step s).2.world.failAt = s.failAt?.getD d.world.failAt := by
  cases s with
  | call c => exact failAt_call d.tabWidth c d.world
  | tabWidth w => rfl
  | failAt point => rfl

theorem run_sameConfiguration (before : List ServiceStep) :
    (start.run before).SameConfiguration (fresh (tabWidthInForce before) (failAtInForce before)) where
  tabWidth := field_run tabWidth_step start before
  failAt := @field_run _ (·.world.failAt) _ failAt_step start before

theorem answers_run (before more : List ServiceStep) :
    (start.run before).answers more =
      (fresh (tabWidthInForce before) (failAtInForce before)).answers more :=
  (run_sameConfiguration before).answers_eq more

theorem tabWidthInForce_append_of_calls {before more : List ServiceStep}
    (h : ∀ s ∈ more, s.tabWidth? = none) :
    tabWidthInForce (before ++ more) = tabWidthInForce before := by
  rw [tabWidthInForce, List.filterMap_append, List.filterMap_eq_nil_iff.mpr h, List.append_nil,
    tabWidthInForce]

theorem failAtInForce_concat (before : List ServiceStep) (point : FailurePoint) :
    failAtInForce (before ++ [.failAt point]) = point := by
  rw [failAtInForce, List.filterMap_append]
  exact List.getLastD_concat

theorem answers_fresh_nowhere (w : TabWidth) {c : ServiceCall} {text : List UInt8} {stop : Point}
    (h : c.request? = some (text, stop)) :
    (fresh w .nowhere).answers [.call c] = [c.answer (countingResolution w text stop)] := by
  have hcall : ((call w c).run ⟨.nowhere, .empty⟩).1 = c.answer (countingResolution w text stop) := by
    rw [call_of_request h, resolve_countingEngine]
    rfl
  exact congrArg (List.cons · []) hcall

/-- Two histories that leave the same tab width and failure point in force cannot be told apart by
any later call, nor from a fresh service with that configuration. So a call that failed can be
repeated: once the failure is cleared, it is answered as it would have been in the first place. -/
theorem answers_independent_of_history (before before' : List ServiceStep)
    (hwidth : tabWidthInForce before = tabWidthInForce before')
    (hpoint : failAtInForce before = failAtInForce before') :
    (∀ more, (start.run before).answers more = (start.run before').answers more ∧
      (start.run before).answers more =
        (fresh (tabWidthInForce before) (failAtInForce before)).answers more) ∧
    ∀ c between, (∀ s ∈ between, s.tabWidth? = none) →
      (start.run (before ++ .call c :: between ++ [.failAt .nowhere])).answers [.call c] =
          (start.run (before ++ [.failAt .nowhere])).answers [.call c] ∧
        ∀ text stop, c.request? = some (text, stop) →
          (start.run (before ++ [.failAt .nowhere])).answers [.call c] =
            [c.answer (countingResolution (tabWidthInForce before) text stop)] := by
  refine ⟨fun more => ⟨?_, answers_run before more⟩, fun c between hbetween => ?_⟩
  · rw [answers_run, answers_run, hwidth, hpoint]
  · have hcleared : tabWidthInForce (before ++ [.failAt .nowhere]) = tabWidthInForce before :=
      tabWidthInForce_append_of_calls (List.forall_mem_singleton.mpr rfl)
    have hretry : tabWidthInForce (before ++ .call c :: between ++ [.failAt .nowhere]) =
        tabWidthInForce before := by
      rw [List.append_assoc]
      refine tabWidthInForce_append_of_calls (List.forall_mem_cons.mpr ⟨rfl, ?_⟩)
      exact List.forall_mem_append.mpr ⟨hbetween, List.forall_mem_singleton.mpr rfl⟩
    refine ⟨?_, fun text stop hc => ?_⟩
    · rw [answers_run, answers_run, hretry, hcleared, failAtInForce_concat, failAtInForce_concat]
    · rw [answers_run, hcleared, failAtInForce_concat, answers_fresh_nowhere _ hc]

/-- A call that fails twice, for two reasons, is answered when it is repeated. -/
theorem answers_independent_of_history_failed :
    let c : ServiceCall := .resolve [0x61] ⟨1, 2⟩
    let before : List ServiceStep := [.failAt .parse, .call c, .tabWidth .standard, .failAt .session]
    let before' : List ServiceStep := [.failAt .session]
    let between : List ServiceStep := [.failAt .parse, .call c]
    tabWidthInForce before = tabWidthInForce before' ∧
      failAtInForce before = failAtInForce before' ∧ (∀ s ∈ between, s.tabWidth? = none) ∧
      (start.run before).answers [.call c] = (start.run before').answers [.call c] ∧
      (start.run (before ++ .call c :: between ++ [.failAt .nowhere])).answers [.call c] =
        (start.run (before ++ [.failAt .nowhere])).answers [.call c] := by
  intro c before before' between
  have hwidth : tabWidthInForce before = tabWidthInForce before' := rfl
  have hpoint : failAtInForce before = failAtInForce before' := rfl
  have hbetween : ∀ s ∈ between, s.tabWidth? = none :=
    List.forall_mem_cons.mpr ⟨rfl, List.forall_mem_singleton.mpr rfl⟩
  obtain ⟨hsame, hretry⟩ := answers_independent_of_history before before' hwidth hpoint
  exact ⟨hwidth, hpoint, hbetween, (hsame _).1, (hretry c between hbetween).1⟩

end ServiceDesk
end CursorState
