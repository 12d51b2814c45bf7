import CursorState.Proofs.Engine.LoggedSession
import CursorState.Proofs.Resolution.Accounting

/-! Answers of both engines are coherent: the strategy tells whether there is a state and whether
tokens were skipped. So an answer can be read off the text that it is shown as, although the number of
skipped tokens is not always part of it. -/
namespace CursorState
open Text

/-- What the strategy of an answer tells about its state and about the skipped tokens. -/
structure Found.Coherent (f : Found) : Prop where
  exact : f.log.strategy = .exact → f.log.skipped.toNat = 0
  initial : f.log.strategy = .initial → f.log.skipped.toNat = 0 ∧ f.state.toNat = 1
  backtrack : f.log.strategy = .backtrack → 0 < f.log.skipped.toNat
  sentinel : f.log.strategy = .sentinel → f.log.skipped.toNat = 0
  no_state : f.state.toNat = 0 ↔ f.log.strategy = .sentinel

namespace Found.Coherent

variable {state : StateId} {skipped : UInt32}

theorem of_exact (h : 0 < state.toNat) : Coherent (.exact state) where
  exact _ := rfl
  initial := nofun
  backtrack := nofun
  sentinel := nofun
  no_state := iff_of_false h.ne' nofun

theorem of_backtrack (h : 0 < state.toNat) (hskipped : 0 < skipped.toNat) :
    Coherent (.backtrack state skipped) where
  exact := nofun
  initial := nofun
  backtrack _ := hskipped
  sentinel := nofun
  no_state := iff_of_false h.ne' nofun

theorem of_initial : Coherent .initial := by
  constructor <;> decide

theorem of_sentinel : Coherent .sentinel := by
  constructor <;> decide

end Found.Coherent

theorem Resolution.Accounts.coherent {r : Resolution} {parsed : List UInt8}
    (h : r.Accounts parsed) : r.found.Coherent where
  exact hs := (h.exact.mp hs).2
  initial hs := by
    have hlength := h.length
    have hpos := h.state_pos
    rw [h.initial.mp hs] at hlength
    omega
  backtrack hs := h.backtrack.mp hs
  sentinel hs := absurd hs h.strategy_ne_sentinel
  no_state := iff_of_false (Nat.ne_of_gt h.state_pos) h.strategy_ne_sentinel

theorem coherent_of_resolve_countingEngine {w : TabWidth} {text : List UInt8} {stop : Point}
    {v : CountingWorld} {r : Resolution} (hlength : text.length < 65535)
    (h : ((resolve countingEngine w text stop).run v).1 = .ok r) : r.found.Coherent := by
  rw [resolve_countingEngine] at h
  cases hv : v.failAt with
  | session =>
    rw [hv] at h
    cases h
  | parse =>
    rw [hv] at h
    cases h
  | nowhere =>
    rw [hv] at h
    cases h
    by_cases hmem : 0x21 ∈ parsedText text stop w
    · rw [countingResolution, countingAnswer_of_mem hmem]
      exact .of_sentinel
    · exact (accounts_countingResolution hlength hmem).coherent

theorem resolve_loggedEngine (g : CompiledGrammar) (w : TabWidth) (text : List UInt8)
    (stop : Point) (events : List Event) :
    ((resolve (loggedEngine g) w text stop).run events).1 =
      match g.automaton.refusal? with
      | some reason => .error (.engine (.language s!"{g.name}: {reason}"))
      | none =>
        .ok ⟨LoggedSession.foundFor (g.automaton.parse (parsedText text stop w)).kept?,
          effectiveLength text stop w⟩ := by
  obtain ⟨name, stateCount, refusal, parse⟩ := g
  cases refusal with
  | some reason => rfl
  | none =>
    have hresolve (run : ParserRun) (h : parse (parsedText text stop w) = run) :
        ((resolve (loggedEngine ⟨name, stateCount, none, parse⟩) w text stop).run events).1 =
          .ok ⟨LoggedSession.foundFor run.kept?, effectiveLength text stop w⟩ := by
      rw [parsedText] at h
      rw [LoggedSession.foundFor, ← run.shifts?_eq]
      simp only [resolve, loggedEngine, h]
      cases run.tree <;> rfl
    exact hresolve _ rfl

theorem Answers.coherent {run : Option ParserRun} {f : Found} (h : Answers run f) :
    f.Coherent := by
  have hclamp {k : Nat} (hk : 0 < k) : 0 < (UInt32.ofNatClamp k).toNat := by
    rw [toNat_ofNatClamp]
    exact Nat.lt_min.mpr ⟨hk, by decide⟩
  cases h with
  | unparsed => exact .of_sentinel
  | noTree => exact .of_sentinel
  | exact _ hlog => exact .of_exact hlog.range.1
  | backtrack _ hlog hk => exact .of_backtrack hlog.range.1 (hclamp hk)
  | initial => exact .of_initial
  | restart _ _ hk => exact .of_backtrack (by decide) (hclamp hk)

theorem coherent_of_resolve_loggedEngine {g : CompiledGrammar} {w : TabWidth} {text : List UInt8}
    {stop : Point} {events : List Event} {r : Resolution}
    (h : ((resolve (loggedEngine g) w text stop).run events).1 = .ok r) : r.found.Coherent := by
  rw [resolve_loggedEngine] at h
  cases hrefusal : g.automaton.refusal? with
  | some reason =>
    rw [hrefusal] at h
    cases h
  | none =>
    rw [hrefusal] at h
    cases h
    exact (answers_foundFor (some (g.automaton.parse (parsedText text stop w)))).coherent

def RecoveryStrategy.letter : RecoveryStrategy → Char
  | exact => 'e'
  | backtrack => 'b'
  | initial => 'i'
  | sentinel => 's'

theorem RecoveryStrategy.letter_injective : Function.Injective letter := by
  intro s t h
  cases s <;> cases t <;> simp_all [letter]

namespace RecoveryLog

variable {log log' : RecoveryLog}

theorem head?_display (log : RecoveryLog) :
    log.display.toList.head? = some log.strategy.letter := by
  obtain ⟨strategy, skipped⟩ := log
  cases strategy <;> simp [display, RecoveryStrategy.letter, toString]

theorem toList_display_of_backtrack (h : log.strategy = .backtrack) :
    log.display.toList =
      "backtrack (skipped ".toList ++ (Nat.toDigits 10 log.skipped.toNat ++ [')']) := by
  rw [display, h]
  simp [toString]

theorem display_inj (hskipped : log.strategy ≠ .backtrack → log.skipped.toNat = 0)
    (hskipped' : log'.strategy ≠ .backtrack → log'.skipped.toNat = 0)
    (h : log.display = log'.display) : log = log' := by
  have hstrategy : log.strategy = log'.strategy := by
    refine RecoveryStrategy.letter_injective (Option.some.inj ?_)
    rw [← head?_display, ← head?_display, h]
  have hnumber : log.skipped.toNat = log'.skipped.toNat := by
    by_cases hback : log.strategy = .backtrack
    · have hlist := congrArg String.toList h
      rw [toList_display_of_backtrack hback,
        toList_display_of_backtrack (hstrategy.symm.trans hback)] at hlist
      exact (toDigits_append_cons_inj (by decide) (List.append_cancel_left hlist)).1
    · rw [hskipped hback, hskipped' (hstrategy ▸ hback)]
  cases log
  cases log'
  rw [mk.injEq]
  exact ⟨hstrategy, UInt32.toNat_inj.mp hnumber⟩

end RecoveryLog

theorem Found.Coherent.skipped_eq_zero {f : Found} (h : f.Coherent)
    (hs : f.log.strategy ≠ .backtrack) : f.log.skipped.toNat = 0 := by
  cases hstrategy : f.log.strategy with
  | exact => exact h.exact hstrategy
  | backtrack => exact absurd hstrategy hs
  | initial => exact (h.initial hstrategy).1
  | sentinel => exact h.sentinel hstrategy

theorem Resolution.toList_render (r : Resolution) :
    (r.render true).toList =
      Nat.toDigits 10 r.found.state.toNat ++ '\n' :: ("parsed: ".toList ++
        (Nat.toDigits 10 r.effectiveLength ++ ' ' :: ("bytes\nrecovery: ".toList ++
          (r.found.log.display.toList ++ ['\n'])))) := by
  simp [render, StateId.display, toString]

/-- Each of the numbers shown ends before a blank or the end of its line. -/
theorem Resolution.render_inj {r r' : Resolution} (hr : r.found.Coherent)
    (hr' : r'.found.Coherent) (h : r.render true = r'.render true) : r = r' := by
  have hlist := congrArg String.toList h
  rw [toList_render, toList_render] at hlist
  obtain ⟨hstate, hlist⟩ := toDigits_append_cons_inj (by decide) hlist
  obtain ⟨hlength, hlist⟩ :=
    toDigits_append_cons_inj (by decide) (List.append_cancel_left hlist)
  have hlog : r.found.log = r'.found.log :=
    RecoveryLog.display_inj hr.skipped_eq_zero hr'.skipped_eq_zero
      (String.toList_inj.mp (List.append_cancel_right (List.append_cancel_left hlist)))
  obtain ⟨⟨state, log⟩, length⟩ := r
  obtain ⟨⟨state', log'⟩, length'⟩ := r'
  rw [mk.injEq, Found.mk.injEq]
  exact ⟨⟨StateId.toNat_inj.mp hstate, hlog⟩, hlength⟩

/-- The answers of the counting engine, on texts that leave it enough states, and of the engine that
goes by the log of a parser, whatever is logged, are coherent. Coherent answers are told apart by
the text they are shown as, with all that they say: their state, the length that was parsed, the
strategy and the number of skipped tokens, which is not shown for two of the strategies. -/
theorem resolutions_coherent_and_render_inj :
    (∀ (w : TabWidth) (text : List UInt8) (stop : Point) (v : CountingWorld) (r : Resolution),
      text.length < 65535 → ((resolve countingEngine w text stop).run v).1 = .ok r →
        r.found.Coherent) ∧
    (∀ (g : CompiledGrammar) (w : TabWidth) (text : List UInt8) (stop : Point)
      (events : List Event) (r : Resolution),
      ((resolve (loggedEngine g) w text stop).run events).1 = .ok r → r.found.Coherent) ∧
    (∀ r r' : Resolution, r.found.Coherent → r'.found.Coherent →
      r.render true = r'.render true → r = r') ∧
    ∀ skipped : UInt32, (RecoveryLog.mk .exact skipped).display = "exact" ∧
      (RecoveryLog.mk .initial skipped).display = "initial" :=
  ⟨fun _ _ _ _ _ hlength h => coherent_of_resolve_countingEngine hlength h,
    fun _ _ _ _ _ _ h => coherent_of_resolve_loggedEngine h,
    fun _ _ hr hr' h => Resolution.render_inj hr hr' h, fun _ => ⟨rfl, rfl⟩⟩

/-- Both engines give the same answer, and no other answer is shown as the same text. -/
theorem resolutions_coherent_and_render_inj_backtrack :
    let text : List UInt8 := [0x61, 0x62, 0x23]
    let log : List LogMessage :=
      [⟨.parsing, "shift state:3"⟩, ⟨.lexing, "skip_token"⟩, ⟨.parsing, "skip_token"⟩]
    let g : CompiledGrammar := ⟨"json", 32, none, fun _ => ⟨log, true⟩⟩
    let r : Resolution := ⟨.backtrack (.ofNat 3) 1, 3⟩
    let shown := "3\nparsed: 3 bytes\nrecovery: backtrack (skipped 1)\n"
    text.length < 65535 ∧
      ((resolve countingEngine .standard text ⟨1, 4⟩).run .start).1 = .ok r ∧
      ((resolve (loggedEngine g) .standard text ⟨1, 4⟩).run []).1 = .ok r ∧
      r.found.Coherent ∧ r.render true = shown ∧
      ∀ r' : Resolution, r'.found.Coherent → r'.render true = shown → r' = r := by
  intro text log g r shown
  have hunits : units text = [.character 0, .character 0, .character 0] := by
    simp [text, units, continuationLength]
  have heffective : effectiveLength text ⟨1, 4⟩ .standard = 3 := by
    rw [effectiveLength_eq_byteOffset, byteOffset, hunits]
    decide
  have hcounting : ((resolve countingEngine .standard text ⟨1, 4⟩).run .start).1 = .ok r :=
    resolve_countingEngine_start heffective
  have hlogged : ((resolve (loggedEngine g) .standard text ⟨1, 4⟩).run []).1 = .ok r := by
    rw [resolve_loggedEngine, heffective]
    decide
  have hshown : r.render true = shown := by decide
  obtain ⟨hcoherent, hcoherent', hinj, -⟩ := resolutions_coherent_and_render_inj
  have hr := hcoherent .standard text ⟨1, 4⟩ .start r (by decide) hcounting
  exact ⟨by decide, hcounting, hlogged, hcoherent' g .standard text ⟨1, 4⟩ [] r hlogged,
    hshown, fun r' hr' h => hinj r' r hr' hr (h.trans hshown.symm)⟩

end CursorState
