import CursorState.Proofs.Engine.CountingAnswer
import CursorState.Proofs.Position.Boundary
import CursorState.Proofs.Resolution.Counting

/-! The bytes before a cursor at the counting engine. Each of them is accounted for by its answer,
either by the state, which counts the bytes that were used, or as one of the error tokens at the end
that were skipped. -/
namespace CursorState

/-- `r.Accounts parsed`: the resolution of a query that parsed `parsed` gives an account of all its
bytes. -/
structure Resolution.Accounts (r : Resolution) (parsed : List UInt8) : Prop where
  length : r.effectiveLength = (r.found.state.toNat - 1) + r.found.log.skipped.toNat
  errors : EndsInErrors parsed r.found.log.skipped.toNat
  state_pos : 1 ≤ r.found.state.toNat
  state_le : r.found.state.toNat ≤ 65535
  initial : r.found.log.strategy = .initial ↔ r.effectiveLength = 0
  backtrack : r.found.log.strategy = .backtrack ↔ 0 < r.found.log.skipped.toNat
  exact : r.found.log.strategy = .exact ↔
    r.effectiveLength ≠ 0 ∧ r.found.log.skipped.toNat = 0

namespace Resolution.Accounts

variable {parsed : List UInt8} {state : StateId}

theorem of_exact (hne : parsed ≠ []) (herrors : EndsInErrors parsed 0)
    (hstate : state.toNat = 1 + parsed.length) (hle : state.toNat ≤ 65535) :
    Accounts ⟨.exact state, parsed.length⟩ parsed where
  length := by
    change parsed.length = (state.toNat - 1) + 0
    omega
  errors := herrors
  state_pos := hstate.symm ▸ Nat.le_add_right 1 _
  state_le := hle
  initial := by simpa [Found.exact] using hne
  backtrack := by simp [Found.exact]
  exact := by simpa [Found.exact] using hne

theorem of_backtrack {n : Nat} (hpos : 0 < n) (hn : n ≤ parsed.length) (hsize : n < UInt32.size)
    (herrors : EndsInErrors parsed n) (hstate : state.toNat = 1 + (parsed.length - n))
    (hle : state.toNat ≤ 65535) :
    Accounts ⟨.backtrack state (.ofNat n), parsed.length⟩ parsed := by
  have hskipped : (UInt32.ofNat n).toNat = n := UInt32.toNat_ofNat_of_lt' hsize
  exact {
    length := by
      change parsed.length = (state.toNat - 1) + (UInt32.ofNat n).toNat
      omega
    errors := hskipped.symm ▸ herrors
    state_pos := hstate.symm ▸ Nat.le_add_right 1 _
    state_le := hle
    initial := by
      have : parsed ≠ [] := List.ne_nil_of_length_pos (hpos.trans_le hn)
      simpa [Found.backtrack] using this
    backtrack := by simpa [Found.backtrack, hskipped] using hpos
    exact := by simpa [Found.backtrack, hskipped] using fun _ => hpos.ne' }

theorem strategy_ne_sentinel {r : Resolution} (h : r.Accounts parsed) :
    r.found.log.strategy ≠ .sentinel := by
  intro hsentinel
  have hinitial := h.initial
  have hbacktrack := h.backtrack
  have hexact := h.exact
  rw [hsentinel] at hinitial hbacktrack hexact
  simp only [reduceCtorEq, false_iff] at hinitial hbacktrack hexact
  omega

end Resolution.Accounts

/-- States are words of 16 bits, and the bound on the text leaves enough of them. -/
theorem accounts_countingAnswer {parsed : List UInt8} (hlength : parsed.length < 65535)
    (h : 0x21 ∉ parsed) :
    Resolution.Accounts ⟨countingAnswer (some parsed), parsed.length⟩ parsed := by
  have herrors := endsInErrors_trailingErrors parsed
  have hle := trailingErrors_le_length parsed
  by_cases hne : parsed = []
  · subst hne
    exact ⟨rfl, herrors, by decide, by decide, by decide, by decide, by decide⟩
  have hstate : (StateId.ofNat (1 + (parsed.length - trailingErrors parsed))).toNat =
      1 + (parsed.length - trailingErrors parsed) := by
    refine StateId.toNat_ofNat ?_
    have : UInt16.size = 65536 := rfl
    omega
  rw [countingAnswer_of_notMem hne h]
  by_cases hzero : trailingErrors parsed = 0
  · rw [if_pos hzero]
    rw [hzero] at herrors
    refine .of_exact hne herrors ?_ ?_
    · rw [hstate, hzero, Nat.sub_zero]
    · rw [hstate]
      omega
  · rw [if_neg hzero]
    refine .of_backtrack (Nat.pos_of_ne_zero hzero) hle ?_ herrors hstate ?_
    · have : UInt32.size = 4294967296 := rfl
      omega
    · rw [hstate]
      omega

theorem accounts_countingResolution {w : TabWidth} {text : List UInt8} {stop : Point}
    (h : text.length < 65535) (hclean : 0x21 ∉ parsedText text stop w) :
    (countingResolution w text stop).Accounts (parsedText text stop w) := by
  have hle := effectiveLength_le_length text stop w
  have hlength := length_parsedText text stop w
  have haccounts := accounts_countingAnswer (by omega) hclean
  rwa [hlength] at haccounts

/-- A query at a counting engine that is not made to fail is answered. No state is known exactly if
the bytes before the cursor hold one that spoils the parse, and nothing is skipped then. Otherwise
the answer accounts for all of them: the state is one more than the bytes that were used, and the
skipped ones are the error tokens at the end. -/
theorem resolve_countingEngine_accounts (w : TabWidth) (text : List UInt8) (stop : Point)
    {v : CountingWorld} (hv : v.failAt = .nowhere) (h : text.length < 65535) :
    ∃ r, ((resolve countingEngine w text stop).run v).1 = .ok r ∧
      r.effectiveLength = effectiveLength text stop w ∧ r.effectiveLength ≤ text.length ∧
      (r.found.log.strategy = .sentinel ↔ 0x21 ∈ text.take r.effectiveLength) ∧
      (0x21 ∈ text.take r.effectiveLength →
        r.found.state.toNat = 0 ∧ r.found.log.skipped.toNat = 0) ∧
      (0x21 ∉ text.take r.effectiveLength → r.Accounts (text.take r.effectiveLength)) := by
  have hanswer : ((resolve countingEngine w text stop).run v).1 =
      .ok (countingResolution w text stop) := by
    rw [resolve_countingEngine, hv]
  have hspoiled (hmem : 0x21 ∈ parsedText text stop w) :
      (countingResolution w text stop).found = .sentinel := countingAnswer_of_mem hmem
  refine ⟨_, hanswer, rfl, effectiveLength_le_length text stop w, ⟨fun hsentinel => ?_,
    fun hmem => ?_⟩, fun hmem => ?_, accounts_countingResolution h⟩
  · by_contra hclean
    exact (accounts_countingResolution h hclean).strategy_ne_sentinel hsentinel
  · rw [hspoiled hmem]
    rfl
  · rw [hspoiled hmem]
    exact ⟨rfl, rfl⟩

/-- A character of two bytes, two error tokens, and behind the cursor a byte that would spoil the
parse. -/
theorem resolve_countingEngine_accounts_skipped :
    let text : List UInt8 := [0x61, 0xC3, 0xA9, 0x23, 0x23, 0x21]
    CountingWorld.start.failAt = .nowhere ∧ text.length < 65535 ∧
      ((resolve countingEngine .standard text ⟨1, 5⟩).run .start).1 =
        .ok ⟨.backtrack (.ofNat 4) 2, 5⟩ ∧
      0x21 ∉ text.take 5 ∧
      Resolution.Accounts ⟨.backtrack (.ofNat 4) 2, 5⟩ (text.take 5) := by
  intro text
  have hunits : units text = [.character 0, .character 1, .character 0, .character 0,
      .character 0] := by
    simp [text, units, continuationLength, isContinuation_iff]
  have heffective : effectiveLength text ⟨1, 5⟩ .standard = 5 := by
    rw [effectiveLength_eq_byteOffset, byteOffset, hunits]
    decide
  have hanswer : ((resolve countingEngine .standard text ⟨1, 5⟩).run .start).1 =
      .ok ⟨.backtrack (.ofNat 4) 2, 5⟩ := resolve_countingEngine_start heffective
  have hclean : 0x21 ∉ text.take 5 := by decide
  obtain ⟨r, hr, -, -, -, -, haccounts⟩ :=
    resolve_countingEngine_accounts .standard text ⟨1, 5⟩ (v := .start) rfl (by decide)
  obtain rfl := Except.ok.inj (hr.symm.trans hanswer)
  exact ⟨rfl, by decide, hanswer, hclean, haccounts hclean⟩

end CursorState
