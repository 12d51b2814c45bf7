import CursorState.Engine.Holder
import CursorState.Engine.Logged
import CursorState.Proofs.Engine.ShiftLog

/-! One session of an engine that answers from the log of its parser. Whatever steps are made, a
search answers for what the most recent parse logged, and for nothing else. -/
namespace CursorState

namespace ParserRun

def lines (r : ParserRun) : List String :=
  (r.log.filter fun m => m.kind = .parsing).map LogMessage.line

/-- The log that a session keeps. -/
def kept? (r : ParserRun) : Option (List String) :=
  if r.tree then some r.lines else none

theorem foldl_observeMessage (r : ParserRun) (record : ShiftRecord) :
    r.log.foldl .observeMessage record = r.lines.foldl .observe record := by
  obtain ⟨log, tree⟩ := r
  induction log generalizing record with
  | nil => rfl
  | cons m log ih =>
    rw [List.foldl_cons, ih, ShiftRecord.observeMessage]
    by_cases hm : m.kind = .parsing <;> simp [lines, hm]

theorem shifts?_eq (r : ParserRun) : r.shifts? = r.kept?.map .ofLog := by
  rw [shifts?, kept?, foldl_observeMessage]
  cases r.tree <;> rfl

end ParserRun

/-- A step on one session. A parser may treat a text in another way each time, so a parse comes with
what the parser does. -/
inductive SessionStep where
  | setStop (stop : Point)
  | setMode (mode : ResolutionMode)
  | parse (text : List UInt8) (run : ParserRun)
  | find (stop : Point)

def SessionStep.run? : SessionStep → Option ParserRun
  | parse _ run => some run
  | setStop _ | setMode _ | find _ => none

def CompiledGrammar.parsing (g : CompiledGrammar) (run : ParserRun) : CompiledGrammar :=
  ⟨g.name, { g.automaton with parse := fun _ => run }⟩

def latestRun? (steps : List SessionStep) : Option ParserRun :=
  (steps.filterMap SessionStep.run?).getLast?

/-- `Answers run found`: a session whose most recent parse was `run`, if there was one, is asked for
a state and answers `found`. -/
inductive Answers : Option ParserRun → Found → Prop
  | unparsed : Answers none ⟨.ofNat 0, .sentinel, 0⟩
  | noTree {run : ParserRun} (htree : run.tree = false) :
      Answers (some run) ⟨.ofNat 0, .sentinel, 0⟩
  | exact {run : ParserRun} {state : StateId} (htree : run.tree)
      (hlog : LogTells run.lines (some state) 0) : Answers (some run) ⟨state, .exact, 0⟩
  | backtrack {run : ParserRun} {state : StateId} {k : Nat} (htree : run.tree)
      (hlog : LogTells run.lines (some state) k) (hk : 0 < k) :
      Answers (some run) ⟨state, .backtrack, UInt32.ofNatClamp k⟩
  | initial {run : ParserRun} (htree : run.tree) (hlog : LogTells run.lines none 0) :
      Answers (some run) ⟨.ofNat 1, .initial, 0⟩
  | restart {run : ParserRun} {k : Nat} (htree : run.tree) (hlog : LogTells run.lines none k)
      (hk : 0 < k) : Answers (some run) ⟨.ofNat 1, .backtrack, UInt32.ofNatClamp k⟩

namespace LoggedSession

variable (g : CompiledGrammar)

def step (s : LoggedSession) (step : SessionStep) :
    StateM (List Event) (HolderAnswer × LoggedSession) := do
  match step with
  | .setStop stop => return (.done, ← (loggedEngine g).setStop s stop)
  | .setMode mode => return (.done, ← (loggedEngine g).setMode s mode)
  | .parse text run =>
    let (s, result) ← (loggedEngine (g.parsing run)).parse s text
    match result with
    | .error e => return (.failed e, s)
    | .ok tree => return (.parsed tree.isSome, s)
  | .find stop => return (.found (← (loggedEngine g).find s stop), s)

def steps (s : LoggedSession) : List SessionStep → StateM (List Event) LoggedSession
  | [] => return s
  | first :: rest => do
    let (_, s) ← s.step g first
    s.steps rest

/-- What a search answers when some steps were made on a new session. -/
def findAfter (made : List SessionStep) (stop : Point) (events : List Event) : HolderAnswer :=
  let (s, events) := (fresh.steps g made).run events
  ((s.step g (.find stop)).run events).1.1

def foundFor (log : Option (List String)) : Found :=
  found ⟨.resolve, log.map .ofLog⟩

/-- Only a parse touches the record of shifts, and it leaves nothing of the record before it. -/
theorem shifts_step (s : LoggedSession) (a : SessionStep) (events : List Event) :
    ((s.step g a).run events).1.2.shifts =
      (a.run?.map fun run => run.kept?.map .ofLog).getD s.shifts := by
  cases a with
  | setStop stop => rfl
  | setMode mode => rfl
  | find stop => rfl
  | parse text run => exact run.shifts?_eq

theorem shifts_steps (s : LoggedSession) (made : List SessionStep) (events : List Event) :
    ((s.steps g made).run events).1.shifts =
      ((made.filterMap SessionStep.run?).map fun run => run.kept?.map .ofLog).getLastD s.shifts := by
  -- on the steps, for any record to start from: the first step leaves the one for the rest
  induction made generalizing s events with
  | nil => rfl
  | cons a rest ih =>
    have hrest := ih ((s.step g a).run events).1.2 ((s.step g a).run events).2
    rw [shifts_step] at hrest
    refine Eq.trans hrest ?_
    cases ha : a.run? with
    | none => rw [List.filterMap_cons_none ha]; rfl
    | some run => rw [List.filterMap_cons_some ha, List.map_cons, List.getLastD_cons]; rfl

theorem findAfter_eq (made : List SessionStep) (stop : Point) (events : List Event) :
    findAfter g made stop events = .found (foundFor ((latestRun? made).bind ParserRun.kept?)) := by
  have hshifts := shifts_steps g fresh made events
  have hlast : ((made.filterMap SessionStep.run?).map fun run =>
      run.kept?.map ShiftRecord.ofLog).getLastD fresh.shifts =
        ((latestRun? made).bind ParserRun.kept?).map .ofLog := by
    rw [List.getLastD_eq_getLast?, List.getLast?_map, latestRun?]
    cases (made.filterMap SessionStep.run?).getLast? <;> rfl
  rw [hlast] at hshifts
  have hfound : findAfter g made stop events =
      .found (found ((fresh.steps g made).run events).1) := rfl
  rw [hfound, found, hshifts, foundFor, found]

end LoggedSession

theorem ofNatClamp_eq_zero_iff {n : Nat} : UInt32.ofNatClamp n = 0 ↔ n = 0 := by
  rw [← UInt32.toNat_inj, toNat_ofNatClamp, UInt32.toNat_zero]
  have : UInt32.size = 4294967296 := rfl
  omega

theorem answers_foundFor (run : Option ParserRun) :
    Answers run (LoggedSession.foundFor (run.bind ParserRun.kept?)) := by
  cases run with
  | none => exact .unparsed
  | some run =>
    cases htree : run.tree with
    | false =>
      have hkept : run.kept? = none := by simp [ParserRun.kept?, htree]
      rw [Option.bind_some, hkept]
      exact .noTree htree
    | true =>
      have hkept : run.kept? = some run.lines := by simp [ParserRun.kept?, htree]
      obtain ⟨last, k, hlog⟩ := exists_logTells run.lines
      have hfound : LoggedSession.foundFor (some run.lines) =
          ShiftRecord.found ⟨last, UInt32.ofNatClamp k⟩ :=
        congrArg ShiftRecord.found (ShiftRecord.ofLog_eq hlog)
      rw [Option.bind_some, hkept, hfound]
      by_cases hk : k = 0
      · subst hk
        cases last with
        | none => exact .initial htree hlog
        | some state => exact .exact htree hlog
      · have hskipped : UInt32.ofNatClamp k ≠ 0 := mt ofNatClamp_eq_zero_iff.mp hk
        have hpos : 0 < k := Nat.pos_of_ne_zero hk
        cases last with
        | none => simpa [ShiftRecord.found, hskipped] using .restart htree hlog hpos
        | some state => simpa [ShiftRecord.found, hskipped] using .backtrack htree hlog hpos

theorem Answers.state {run : Option ParserRun} {f : Found} (h : Answers run f) :
    (f.state.toNat = 0 ↔ f.log.strategy = .sentinel) ∧ f.state.toNat ≠ 65535 := by
  cases h with
  | unparsed => decide
  | noTree => decide
  | exact _ hlog =>
    have := hlog.range
    simp
    omega
  | backtrack _ hlog =>
    have := hlog.range
    simp
    omega
  | initial => decide
  | restart => simp; decide

/-- After any steps on a session, a search answers what the log of the most recent parse tells, and
that no state is known if there was none or it gave no tree. No other number than 0 stands for no
state. Neither other steps, nor what is reported, nor the text and the stop point have a part in
it: where the most recent parses left the same log, the answers are the same. -/
theorem findAfter_tells_latestRun (g : CompiledGrammar) (made : List SessionStep) (stop : Point)
    (events : List Event) :
    (∃ f, LoggedSession.findAfter g made stop events = .found f ∧ Answers (latestRun? made) f ∧
      (f.state.toNat = 0 ↔ f.log.strategy = .sentinel) ∧ f.state.toNat ≠ 65535) ∧
    ∀ g' made' stop' events',
      (latestRun? made').bind ParserRun.kept? = (latestRun? made).bind ParserRun.kept? →
        LoggedSession.findAfter g' made' stop' events' =
          LoggedSession.findAfter g made stop events := by
  have hanswers := answers_foundFor (latestRun? made)
  refine ⟨⟨_, LoggedSession.findAfter_eq g made stop events, hanswers, hanswers.state⟩, ?_⟩
  intro g' made' stop' events' hkept
  rw [LoggedSession.findAfter_eq, LoggedSession.findAfter_eq, hkept]

/-- A parse that comes after another one, and whose log also tells of tokens. -/
theorem findAfter_tells_latestRun_reparsed :
    let g : CompiledGrammar := ⟨"json", 32, none, fun _ => ⟨[], false⟩⟩
    let run : ParserRun := ⟨[⟨.parsing, "shift state:5"⟩, ⟨.parsing, "skip_token"⟩], true⟩
    let run' : ParserRun :=
      ⟨[⟨.lexing, "consume"⟩, ⟨.parsing, "shift state:5"⟩, ⟨.parsing, "skip_token"⟩], true⟩
    let made : List SessionStep := [.parse [0x5B, 0x40] run]
    let made' : List SessionStep :=
      [.setMode .discover, .parse [0x31] ⟨[⟨.parsing, "shift state:8"⟩], true⟩, .find ⟨1, 2⟩,
        .parse [0x5B, 0x23] run', .setStop ⟨1, 3⟩]
    (latestRun? made').bind ParserRun.kept? = (latestRun? made).bind ParserRun.kept? ∧
      LoggedSession.findAfter g made' ⟨1, 3⟩ [] = LoggedSession.findAfter g made ⟨7, 7⟩ [] := by
  intro g run run' made made'
  have hkept : (latestRun? made').bind ParserRun.kept? = (latestRun? made).bind ParserRun.kept? := by
    decide
  exact ⟨hkept, (findAfter_tells_latestRun g made ⟨7, 7⟩ []).2 g made' ⟨1, 3⟩ [] hkept⟩

end CursorState
