import Mathlib.Data.List.Basic
import CursorState.Engine.Bench
import CursorState.Proofs.Engine.CountingAnswer

/-! Runs of a holder at the counting engine. What the ledger shows as live is what is held, and a
search answers for the last text that the held session parsed. -/
namespace CursorState

structure BenchRecord where
  step : BenchStep
  answer : HolderAnswer

def HolderAnswer.succeeded : HolderAnswer → Bool
  | failed _ | noSession => false
  | done | parsed _ | found _ => true

namespace BenchRecord

def opens (e : BenchRecord) : Bool :=
  match e.step with
  | .hold .open => e.answer.succeeded
  | _ => false

/-- The session that was held so far, if any, is held no more. -/
def endsSession (e : BenchRecord) : Bool :=
  match e.step with
  | .hold .releaseSession => true
  | _ => e.opens

/-- The text of a parse that succeeded. -/
def parsed? (e : BenchRecord) : Option (List UInt8) :=
  match e.step with
  | .hold (.parse text) => if e.answer.succeeded then some text else none
  | _ => none

end BenchRecord

/-- `text` was parsed successfully, and since then no other text was, and the session is the same. -/
def LatestParse (made : List BenchRecord) (text : List UInt8) : Prop :=
  ∃ before e after, made = before ++ e :: after ∧ e.parsed? = some text ∧
    ∀ later ∈ after, later.parsed? = none ∧ later.endsSession = false

theorem not_latestParse_nil (text : List UInt8) : ¬LatestParse [] text := by
  rintro ⟨before, e, after, hmade, -, -⟩
  simp at hmade

theorem latestParse_concat {made : List BenchRecord} {e : BenchRecord} {text : List UInt8} :
    LatestParse (made ++ [e]) text ↔
      e.parsed? = some text ∨
        e.parsed? = none ∧ e.endsSession = false ∧ LatestParse made text := by
  constructor
  · rintro ⟨before, e', after, hmade, htext, hafter⟩
    obtain rfl | ⟨after, last, rfl⟩ := List.eq_nil_or_concat' after
    · obtain ⟨-, rfl⟩ := List.append_singleton_inj.mp hmade
      exact .inl htext
    · rw [← List.cons_append, ← List.append_assoc] at hmade
      obtain ⟨rfl, rfl⟩ := List.append_singleton_inj.mp hmade
      obtain ⟨hparsed, hsession⟩ := hafter e (by simp)
      exact .inr ⟨hparsed, hsession, before, e', after, rfl, htext,
        fun later hlater => hafter later (List.mem_append_left _ hlater)⟩
  · rintro (htext | ⟨hparsed, hsession, before, e', after, rfl, htext, hafter⟩)
    · exact ⟨made, e, [], rfl, htext, fun _ h => absurd h List.not_mem_nil⟩
    · refine ⟨before, e', after ++ [e], by simp, htext, fun later hlater => ?_⟩
      obtain hlater | hlater := List.mem_append.mp hlater
      · exact hafter later hlater
      · rw [List.mem_singleton.mp hlater]
        exact ⟨hparsed, hsession⟩

namespace Bench

def run (b : Bench) : List BenchStep → Bench
  | [] => b
  | s :: rest => (b.step s).2.run rest

def history (b : Bench) : List BenchStep → List BenchRecord
  | [] => []
  | s :: rest => ⟨s, (b.step s).1⟩ :: (b.step s).2.history rest

def sessionsHeld (b : Bench) : Nat := b.holder.session.isSome.toNat

def treesHeld (b : Bench) : Nat := b.holder.tree.isSome.toNat

def parsed (b : Bench) : Option (List UInt8) :=
  b.holder.session.bind CountingSession.parsed

/-- What a step does to the ledger and to what is held, told by how it was answered. -/
structure StepMade (b : Bench) (e : BenchRecord) (b' : Bench) : Prop where
  sessionsOpened :
    b'.world.ledger.sessionsOpened = b.world.ledger.sessionsOpened + e.opens.toNat
  sessionsReleased : b'.world.ledger.sessionsReleased + b'.sessionsHeld =
    b.world.ledger.sessionsReleased + b.sessionsHeld + e.opens.toNat
  treesCreated :
    b'.world.ledger.treesCreated = b.world.ledger.treesCreated + e.parsed?.isSome.toNat
  treesReleased : b'.world.ledger.treesReleased + b'.treesHeld =
    b.world.ledger.treesReleased + b.treesHeld + e.parsed?.isSome.toNat
  parsed : b'.parsed = e.parsed?.or (if e.endsSession then none else b.parsed)
  /-- A step that fails changes nothing: what was held stays held, and nothing is recorded. -/
  failed : e.answer.succeeded ∨ b' = b

theorem step_made (b : Bench) (s : BenchStep) :
    b.StepMade ⟨s, (b.step s).1⟩ (b.step s).2 := by
  -- The cases are the ways a step can go: what it needs may not be held, or the engine may refuse.
  obtain ⟨⟨failAt, ledger⟩, ⟨session, tree⟩⟩ := b
  cases s with
  | failAt point => exact ⟨rfl, rfl, rfl, rfl, rfl, .inl rfl⟩
  | hold s =>
    cases s with
    | «open» =>
      cases failAt with
      | session => cases session <;> exact ⟨rfl, rfl, rfl, rfl, rfl, .inr rfl⟩
      | nowhere | parse => cases session <;> exact ⟨rfl, rfl, rfl, rfl, rfl, .inl rfl⟩
    | releaseSession => cases session <;> exact ⟨rfl, rfl, rfl, rfl, rfl, .inl rfl⟩
    | releaseTree => cases tree <;> exact ⟨rfl, rfl, rfl, rfl, rfl, .inl rfl⟩
    | setStop | setMode | find =>
      cases session with
      | none => exact ⟨rfl, rfl, rfl, rfl, rfl, .inr rfl⟩
      | some session => exact ⟨rfl, rfl, rfl, rfl, rfl, .inl rfl⟩
    | parse text =>
      cases session with
      | none => exact ⟨rfl, rfl, rfl, rfl, rfl, .inr rfl⟩
      | some session =>
        obtain ⟨failsParse, parsed⟩ := session
        cases failsParse with
        | true => exact ⟨rfl, rfl, rfl, rfl, rfl, .inr rfl⟩
        | false => cases tree <;> exact ⟨rfl, rfl, rfl, rfl, rfl, .inl rfl⟩

/-- `b` is where a run has come that has made the steps `made`. -/
structure Follows (made : List BenchRecord) (b : Bench) : Prop where
  sessions : b.world.ledger.sessionsOpened = b.world.ledger.sessionsReleased + b.sessionsHeld
  trees : b.world.ledger.treesCreated = b.world.ledger.treesReleased + b.treesHeld
  parsed : ∀ text, b.parsed = some text ↔ LatestParse made text

theorem start_follows : start.Follows [] where
  sessions := rfl
  trees := rfl
  parsed text := iff_of_false nofun (not_latestParse_nil text)

theorem Follows.step {made : List BenchRecord} {b b' : Bench} {e : BenchRecord}
    (h : b.Follows made) (hstep : b.StepMade e b') : b'.Follows (made ++ [e]) where
  sessions := by
    have := h.sessions
    have := hstep.sessionsOpened
    have := hstep.sessionsReleased
    omega
  trees := by
    have := h.trees
    have := hstep.treesCreated
    have := hstep.treesReleased
    omega
  parsed text := by
    rw [latestParse_concat, hstep.parsed, ← h.parsed]
    cases e.parsed? with
    | some text' => simp
    | none => cases e.endsSession <;> simp

theorem Follows.run {made : List BenchRecord} {b : Bench} (h : b.Follows made)
    (steps : List BenchStep) : (b.run steps).Follows (made ++ b.history steps) := by
  induction steps generalizing made b with
  | nil => rwa [history, List.append_nil]
  | cons s rest ih =>
    have hrest := ih (h.step (b.step_made s))
    rwa [List.append_assoc] at hrest

theorem find_answer (b : Bench) (stop : Point) :
    (b.step (.hold (.find stop))).1 =
      if b.holder.session.isSome then .found (countingAnswer b.parsed) else .noSession := by
  obtain ⟨world, ⟨session, tree⟩⟩ := b
  cases session <;> rfl

theorem Follows.find_answer_of_unparsed {made : List BenchRecord} {b : Bench} (h : b.Follows made)
    (hnone : ∀ text, ¬LatestParse made text) (hheld : b.holder.session.isSome) (stop : Point) :
    (b.step (.hold (.find stop))).1 = .found ⟨.ofNat 0, .sentinel, 0⟩ := by
  have hparsed : b.parsed = none :=
    Option.eq_none_iff_forall_ne_some.mpr fun text htext => hnone text ((h.parsed text).mp htext)
  rw [find_answer, if_pos hheld, hparsed]
  rfl

/-- After any run, hence after each of its steps, just what is held is live. A search answers what
the bytes of the latest parse of the held session count as, and nothing else; if that session has
parsed nothing, it answers that no state is known. What else the bench has been through makes no
difference. Whatever step comes next, it changes nothing if it fails. -/
theorem run_live_eq_held (steps : List BenchStep) :
    let b := start.run steps
    let l := b.world.ledger
    l.liveSessions = b.sessionsHeld ∧ l.liveTrees = b.treesHeld ∧
      l.sessionsReleased ≤ l.sessionsOpened ∧ l.treesReleased ≤ l.treesCreated ∧
      (∃ (parsed : Option (List UInt8)) (found : Found),
        (∀ text, parsed = some text ↔ LatestParse (start.history steps) text) ∧
        (∀ f, CountsAs parsed f ↔ f = found) ∧
        ∀ stop, (b.step (.hold (.find stop))).1 =
          if b.holder.session.isSome then .found found else .noSession) ∧
      ((∀ text, ¬LatestParse (start.history steps) text) → b.holder.session.isSome →
        ∀ stop, (b.step (.hold (.find stop))).1 = .found ⟨.ofNat 0, .sentinel, 0⟩) ∧
      ∀ s, (b.step s).1.succeeded ∨ (b.step s).2 = b := by
  intro b l
  have h : b.Follows (start.history steps) := start_follows.run steps
  refine ⟨?_, ?_, ?_, ?_, ?_, h.find_answer_of_unparsed, fun s => (b.step_made s).failed⟩
  · rw [Ledger.liveSessions, h.sessions, Nat.add_sub_cancel_left]
  · rw [Ledger.liveTrees, h.trees, Nat.add_sub_cancel_left]
  · exact Nat.le.intro h.sessions.symm
  · exact Nat.le.intro h.trees.symm
  · exact ⟨b.parsed, countingAnswer b.parsed, h.parsed, fun f => countsAs_iff, b.find_answer⟩

/-- A session is opened in the place of one that has parsed a text. -/
theorem run_live_eq_held_reopened :
    let steps : List BenchStep := [.hold .open, .hold (.parse [0x61, 0x23]), .hold .open]
    (∀ text, ¬LatestParse (start.history steps) text) ∧
      (start.run steps).holder.session.isSome ∧
      ((start.run steps).step (.hold (.find ⟨1, 3⟩))).1 = .found ⟨.ofNat 0, .sentinel, 0⟩ := by
  intro steps
  have hnone : ∀ text, ¬LatestParse (start.history steps) text :=
    fun text h => nomatch ((start_follows.run steps).parsed text).mpr h
  obtain ⟨-, -, -, -, -, hunparsed, -⟩ := run_live_eq_held steps
  exact ⟨hnone, rfl, hunparsed hnone rfl ⟨1, 3⟩⟩

end Bench
end CursorState
