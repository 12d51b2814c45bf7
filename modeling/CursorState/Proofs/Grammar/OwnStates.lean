import CursorState.Proofs.Resolution.Rendering
import CursorState.Query

/-! The states that queries answer are states of the automaton that they ask, if its parser shifts to
no others. The stand-ins are such automata. -/
namespace CursorState
open Text

/-- The parser of an automaton logs no shift to a state that the automaton does not have. -/
def Automaton.LogsOwnStates (a : Automaton) : Prop :=
  ∀ text, ∀ line ∈ (a.parse text).lines, ∀ state,
    ShiftLine line.toList state → state.toNat < a.stateCount

theorem LogTells.exists_shiftLine {lines : List String} {state : StateId} {skipped : Nat}
    (h : LogTells lines (some state) skipped) : ∃ line ∈ lines, ShiftLine line.toList state := by
  cases h with
  | @shifted before after line _ hshift _ => exact ⟨line, by simp, hshift⟩

theorem Answers.state_lt {run : ParserRun} {f : Found} {n : Nat} (h : Answers (some run) f)
    (hstart : 1 < n)
    (hown : ∀ line ∈ run.lines, ∀ state, ShiftLine line.toList state → state.toNat < n) :
    f.state.toNat < n := by
  cases h with
  | noTree => exact Nat.zero_lt_of_lt hstart
  | exact _ hlog | backtrack _ hlog =>
    obtain ⟨line, hline, hshift⟩ := hlog.exists_shiftLine
    exact hown line hline _ hshift
  | initial | restart => exact hstart

theorem Answers.strategy_ne_sentinel {run : ParserRun} {f : Found} (h : Answers (some run) f)
    (htree : run.tree) : f.log.strategy ≠ .sentinel := by
  cases h with
  | noTree hnone => exact absurd (htree.symm.trans hnone) (by decide)
  | exact | backtrack | initial | restart => exact nofun

namespace CompiledGrammar

variable {g : CompiledGrammar} {w : TabWidth} {text : List UInt8} {stop : Point}

theorem query_answer (g : CompiledGrammar) (w : TabWidth) (text : List UInt8) (stop : Point) :
    (g.query w text stop).1 = ((resolve (loggedEngine g) w text stop).run []).1 := by
  unfold query
  dsimp only
  split
  · next heq => exact (congrArg Prod.fst heq).symm
  · next heq => exact (congrArg Prod.fst heq).symm

/-- Each query on a grammar that can be loaded is answered, with a state of its automaton. It is the
state that the log of the parser tells for the text before the cursor. -/
theorem query_state_lt (hloaded : g.automaton.refusal? = none) (hstart : 1 < g.automaton.stateCount)
    (hown : g.automaton.LogsOwnStates) :
    ∃ r, (g.query w text stop).1 = .ok r ∧
      Answers (some (g.automaton.parse (parsedText text stop w))) r.found ∧
      r.found.state.toNat < g.automaton.stateCount := by
  have hanswers := answers_foundFor (some (g.automaton.parse (parsedText text stop w)))
  refine ⟨⟨_, effectiveLength text stop w⟩, ?_, hanswers, hanswers.state_lt hstart (hown _)⟩
  rw [query_answer, resolve_loggedEngine, hloaded]
  rfl

end CompiledGrammar

namespace Grammar

theorem objectState_lt (pairs : Nat) : 0 < objectState pairs ∧ objectState pairs < 32 := by
  unfold objectState
  split <;> decide

theorem arrayState_lt (values : Nat) : 0 < arrayState values ∧ arrayState values < 32 := by
  unfold arrayState
  split <;> decide

theorem shift_state_lt {frames : List Frame} {l : Lexeme} {state : Nat} {c : Config}
    (h : shift frames l = some (state, c)) : 0 < state ∧ state < 32 := by
  cases l with
  | openBrace | openBracket | scalar | quote =>
    -- whether the token is allowed does not bear on the state
    obtain ⟨frames', -, he⟩ := Option.bind_eq_some_iff.mp h
    cases he
    decide
  | closeBrace =>
    cases frames with
    | nil => cases h
    | cons frame frames =>
      obtain ⟨-, he⟩ := Option.ite_none_right_eq_some.mp h
      cases he
      exact objectState_lt frame.count
  | closeBracket =>
    cases frames with
    | nil => cases h
    | cons frame frames =>
      obtain ⟨-, he⟩ := Option.ite_none_right_eq_some.mp h
      cases he
      exact arrayState_lt frame.count
  | colon =>
    cases frames with
    | nil => cases h
    | cons frame frames =>
      obtain ⟨-, he⟩ := Option.ite_none_right_eq_some.mp h
      cases he
      decide
  | comma =>
    cases frames with
    | nil => cases h
    | cons frame frames =>
      obtain ⟨-, he⟩ := Option.ite_none_right_eq_some.mp h
      split at he <;> cases he <;> decide

namespace Config

theorem step_state_lt {c d : Config} {cs rest : List Char} {state : Nat}
    (h : c.step cs = some (state, d, rest)) : 0 < state ∧ state < 32 := by
  unfold step at h
  split at h
  · split at h
    · cases h
    · obtain ⟨⟨state, d⟩, hshift, he⟩ := Option.map_eq_some_iff.mp h
      cases he
      exact shift_state_lt hshift
  · split at h
    · cases h
      split <;> decide
    · obtain ⟨_, -, he⟩ := Option.map_eq_some_iff.mp h
      cases he
      split <;> decide

theorem run_states_lt (c : Config) (cs : List Char) :
    ∀ state ∈ (c.run cs).1, 0 < state ∧ state < 32 := by
  fun_induction Config.run c cs with
  | case1 c cs state d rest hstep states stuck hrun ih =>
    rw [hrun] at ih
    exact List.forall_mem_cons.mpr ⟨step_state_lt hstep, ih⟩
  | case2 => exact fun _ h => absurd h List.not_mem_nil

end Config

theorem shiftTarget?_shiftState {n : Nat} (hpos : 0 < n) (hlt : n < 65535) :
    shiftTarget? s!"shift state:{n}" = some (.ofNat n) := by
  have hstate : (StateId.ofNat n).toNat = n :=
    StateId.toNat_ofNat (hlt.trans (by decide))
  have hline : s!"shift state:{n}".toList =
      "shift state:".toList ++ ([] ++ ([] ++ Nat.toDigits 10 n) ++ []) := by
    simp [toString]
  rw [shiftTarget?_eq_some_iff, hline]
  refine .intro (fun _ h => absurd h List.not_mem_nil) (.inl rfl) (hstate.symm ▸ denotes_toDigits n)
    (fun _ h => absurd h List.not_mem_nil) ?_ ?_
  · rwa [hstate]
  · rwa [hstate]

theorem jsonLog_state_lt {text : List UInt8} {line : String} {state : StateId}
    (hline : line ∈ jsonLog text) (hshift : ShiftLine line.toList state) : state.toNat < 32 := by
  rw [← shiftTarget?_eq_some_iff] at hshift
  rcases List.mem_append.mp hline with hline | hline
  · obtain ⟨n, hn, rfl⟩ := List.mem_map.mp hline
    obtain ⟨hpos, hlt⟩ := Config.run_states_lt _ _ n hn
    rw [shiftTarget?_shiftState hpos (hlt.trans (by decide))] at hshift
    obtain rfl := Option.some.inj hshift
    rwa [StateId.toNat_ofNat (hlt.trans (by decide))]
  · have hskip : line = "skip_token" := by
      split at hline
      · exact List.mem_singleton.mp hline
      · cases hline
    have hnone : shiftTarget? "skip_token" = none := by decide
    rw [hskip, hnone] at hshift
    cases hshift

theorem jsonRun_lines (text : List UInt8) : (jsonRun text).lines = jsonLog text := by
  simp [jsonRun, ParserRun.lines, List.filter_map, Function.comp_def]

theorem standIns_logsOwnStates (l : Language) : (standIns l).LogsOwnStates := by
  intro text line hline state hshift
  cases l with
  | json =>
    change line ∈ (jsonRun text).lines at hline
    rw [jsonRun_lines] at hline
    exact jsonLog_state_lt hline hshift
  | javascript | python | rust => cases hline

end Grammar

/-- In a build with the stand-ins each query is answered with a state of the language's automaton,
and for JSON that is never the one that stands for none. -/
theorem Language.query_state_lt (l : Language) (w : TabWidth) (text : List UInt8) (stop : Point) :
    ∃ r, (l.query w text stop).1 = .ok r ∧ r.found.Coherent ∧ r.found.state.toNat < l.stateCount ∧
      (l = .json → r.found.log.strategy ≠ .sentinel) := by
  have hloaded : l.grammar.automaton.refusal? = none := by cases l <;> rfl
  have hstart : 1 < l.grammar.automaton.stateCount := by cases l <;> decide
  obtain ⟨r, hr, hanswers, hstate⟩ :=
    CompiledGrammar.query_state_lt hloaded hstart (Grammar.standIns_logsOwnStates l)
  refine ⟨r, hr, hanswers.coherent, hstate, ?_⟩
  rintro rfl
  exact hanswers.strategy_ne_sentinel rfl

end CursorState
