import CursorState.Proofs.Json.NumberValue
import CursorState.Proofs.Resolution.ParsedText
import CursorState.Service

/-! Which calls are in order, and which check the others fail first. -/
namespace CursorState
open Text

namespace Json.Number

variable {magnitude : Binary64} {n : Nat}

theorem toNat?_double_false :
    (double false magnitude).toNat? = some n ↔ (double false magnitude).value = n := by
  simp [toNat?, value, Binary64.toNat?_eq_some_iff]

theorem toNat?_double_true :
    (double true magnitude).toNat? = some n ↔ (double true magnitude).value = n := by
  have hnonneg : 0 ≤ magnitude.value := magnitude.value_nonneg
  have hn : (0 : ℚ) ≤ n := Nat.cast_nonneg n
  constructor
  · intro h
    obtain ⟨k, hk, h⟩ := Option.bind_eq_some_iff.mp h
    split at h
    · cases h
    · next hzero =>
      obtain rfl := Option.some.inj h
      obtain rfl : k = 0 := by simpa using hzero
      simp [value, Binary64.toNat?_eq_some_iff.mp hk]
  · intro h
    have hneg : -magnitude.value = n := h
    have hzero : magnitude.value = 0 := le_antisymm (neg_nonneg.mp (hneg ▸ hn)) hnonneg
    obtain rfl : n = 0 := by simpa [hzero] using hneg.symm
    have hk : magnitude.toNat? = some 0 := Binary64.toNat?_eq_some_iff.mpr (by simpa using hzero)
    simp [toNat?, hk]

theorem toNat?_eq_some_iff {t : NumberToken} {x : Number} (h : t.number? = some x) :
    x.toNat? = some n ↔ x.value = n := by
  cases x with
  | natural k => simp [toNat?, value]
  | negative m =>
    have hm : (0 : ℚ) < m := Nat.cast_pos.mpr (NumberToken.pos_of_number?_eq_negative h)
    have hn : (0 : ℚ) ≤ n := Nat.cast_nonneg n
    have hne : (negative m).value ≠ n := ((neg_neg_of_pos hm).trans_le hn).ne
    exact iff_of_false (Option.some_ne_none n).symm hne
  | double isNegative magnitude =>
    cases isNegative with
    | false => exact toNat?_double_false
    | true => exact toNat?_double_true

end Json.Number

/-- A value that stands for the coordinate `n`: a number that is decoded to just that, as a whole
number or as a double. -/
def IsCoordinate (v : Json.Value) (n : UInt32) : Prop :=
  ∃ token x, v = .number token ∧ token.number? = some x ∧ x.value = n.toNat

theorem coordinate?_eq_some_iff {v : Json.Value} {n : UInt32} :
    coordinate? v = some n ↔ IsCoordinate v n := by
  constructor
  · intro h
    cases v with
    | number token =>
      obtain ⟨x, hx, h⟩ := Option.bind_eq_some_iff.mp h
      obtain ⟨k, hk, h⟩ := Option.bind_eq_some_iff.mp h
      split at h
      · next hlt =>
        obtain rfl := Option.some.inj h
        refine ⟨token, x, rfl, hx, ?_⟩
        rw [(Json.Number.toNat?_eq_some_iff hx).mp hk, UInt32.toNat_ofNat_of_lt' hlt]
      · cases h
    | _ => cases h
  · rintro ⟨token, x, rfl, hx, hvalue⟩
    have hk : x.toNat? = some n.toNat := (Json.Number.toNat?_eq_some_iff hx).mpr hvalue
    simp [coordinate?, hx, hk, n.toNat_lt_size]

theorem coordinate?_eq_none_iff {v : Json.Value} :
    coordinate? v = none ↔ ∀ n, ¬ IsCoordinate v n := by
  simp only [← coordinate?_eq_some_iff, Option.eq_none_iff_forall_ne_some, ne_eq]

/-- The zero with a minus is a double. -/
example : coordinate? (.number ⟨true, ['0'], [], none⟩) = some 0 := rfl

/-- Arguments in order: the source text and the coordinates of the cursor, whatever follows them. -/
def ArgumentsGive (args : List Json.Value) (source : String) (stop : Point) : Prop :=
  ∃ row column rest, args = .string source :: row :: column :: rest ∧
    IsCoordinate row stop.row ∧ IsCoordinate column stop.column

/-- `FirstFault args fault`: of the checks of the number of arguments, of the source, of the row
and of the column, in this order, the first one that fails reports `fault`. -/
inductive FirstFault : List Json.Value → ArgumentFault → Prop
  | tooFew {args : List Json.Value} (hcount : args.length < 3) : FirstFault args .tooFew
  | source {source row column : Json.Value} {rest : List Json.Value}
      (hsource : ∀ s, source ≠ .string s) :
      FirstFault (source :: row :: column :: rest) .source
  | row {source : String} {row column : Json.Value} {rest : List Json.Value}
      (hrow : ∀ n, ¬ IsCoordinate row n) :
      FirstFault (.string source :: row :: column :: rest) .row
  | column {source : String} {row column : Json.Value} {rest : List Json.Value} {r : UInt32}
      (hrow : IsCoordinate row r) (hcolumn : ∀ n, ¬ IsCoordinate column n) :
      FirstFault (.string source :: row :: column :: rest) .column

section Arguments

variable {args : List Json.Value} {source : String} {stop : Point} {fault : ArgumentFault}

theorem arguments_cases (args : List Json.Value) :
    (∃ source stop, ArgumentsGive args source stop) ∨ ∃ fault, FirstFault args fault := by
  match args with
  | [] | [_] | [_, _] => exact .inr ⟨.tooFew, .tooFew (by simp)⟩
  | source :: row :: column :: rest =>
    by_cases hsource : ∃ s, source = .string s
    · obtain ⟨source, rfl⟩ := hsource
      by_cases hrow : ∃ r, IsCoordinate row r
      · obtain ⟨r, hrow⟩ := hrow
        by_cases hcolumn : ∃ c, IsCoordinate column c
        · obtain ⟨c, hcolumn⟩ := hcolumn
          exact .inl ⟨source, ⟨r, c⟩, row, column, rest, rfl, hrow, hcolumn⟩
        · exact .inr ⟨.column, .column hrow (not_exists.mp hcolumn)⟩
      · exact .inr ⟨.row, .row (not_exists.mp hrow)⟩
    · exact .inr ⟨.source, .source (not_exists.mp hsource)⟩

theorem ArgumentsGive.readArguments_eq (h : ArgumentsGive args source stop) :
    readArguments args = .ok (encode source.toList, stop) := by
  obtain ⟨row, column, rest, rfl, hrow, hcolumn⟩ := h
  simp only [readArguments, coordinate?_eq_some_iff.mpr hrow, coordinate?_eq_some_iff.mpr hcolumn]

theorem FirstFault.readArguments_eq (h : FirstFault args fault) :
    readArguments args = .error fault := by
  cases h with
  | tooFew hcount =>
    match args, hcount with
    | [], _ | [_], _ | [_, _], _ => rfl
  | @source source row column rest hsource =>
    cases source with
    | string s => exact absurd rfl (hsource s)
    | _ => rfl
  | row hrow => simp only [readArguments, coordinate?_eq_none_iff.mpr hrow]
  | column hrow hcolumn =>
    simp only [readArguments, coordinate?_eq_some_iff.mpr hrow, coordinate?_eq_none_iff.mpr hcolumn]

theorem readArguments_take (args : List Json.Value) :
    readArguments (args.take 3) = readArguments args := by
  match args with
  | [] | [_] | [_, _] | _ :: _ :: _ :: _ => rfl

theorem ArgumentFault.message_injective : message.Injective := by
  intro f g h
  cases f <;> cases g <;> first | rfl | exact absurd h (by decide)

theorem resolve_ne_usage (E : Engine) (w : TabWidth) (text : List UInt8) (stop : Point)
    (v : E.World) (message : String) :
    ((resolve E w text stop).run v).1 ≠ .error (.usage message) := by
  intro h
  have hends := resolve_ends E w text stop v
  rw [h] at hends
  cases hends

theorem stateAt_ne_usage (E : Engine) (w : TabWidth) (text : List UInt8) (stop : Point)
    (v : E.World) (message : String) :
    ((stateAt E w text stop).run v).1 ≠ .error (.usage message) := by
  intro h
  have hstate : ((stateAt E w text stop).run v).1 =
      ((resolve E w text stop).run v).1.map fun r => r.found.state := rfl
  rw [hstate] at h
  cases hr : ((resolve E w text stop).run v).1 with
  | ok r =>
    rw [hr] at h
    cases h
  | error e =>
    rw [hr] at h
    obtain rfl := Except.error.inj h
    exact resolve_ne_usage E w text stop v message hr

variable (E : Engine) (w : TabWidth)

theorem ArgumentsGive.stateOfArguments_eq (h : ArgumentsGive args source stop) :
    stateOfArguments E w args = stateAt E w (encode source.toList) stop := by
  rw [stateOfArguments, h.readArguments_eq]

theorem FirstFault.stateOfArguments_eq (h : FirstFault args fault) :
    stateOfArguments E w args = pure (.error (.usage fault.message)) := by
  rw [stateOfArguments, h.readArguments_eq]

theorem run_stateOfArguments_eq_stateAt_iff (v : E.World) :
    (∃ text stop, (stateOfArguments E w args).run v = (stateAt E w text stop).run v) ↔
      ∃ source stop, ArgumentsGive args source stop := by
  constructor
  · rintro ⟨text, stop, h⟩
    refine (arguments_cases args).resolve_right ?_
    rintro ⟨fault, hfault⟩
    rw [hfault.stateOfArguments_eq] at h
    exact stateAt_ne_usage E w text stop v fault.message (congrArg Prod.fst h).symm
  · rintro ⟨source, stop, h⟩
    exact ⟨encode source.toList, stop, by rw [h.stateOfArguments_eq]⟩

theorem run_stateOfArguments_eq_usage_iff (v : E.World) :
    (stateOfArguments E w args).run v = (.error (.usage fault.message), v) ↔
      FirstFault args fault := by
  constructor
  · intro h
    rcases arguments_cases args with ⟨source, stop, hgive⟩ | ⟨fault', hfault⟩
    · rw [hgive.stateOfArguments_eq] at h
      exact absurd (congrArg Prod.fst h) (stateAt_ne_usage E w _ stop v fault.message)
    · rw [hfault.stateOfArguments_eq] at h
      have hmessage : fault'.message = fault.message :=
        QueryError.usage.inj (Except.error.inj (congrArg Prod.fst h))
      rwa [ArgumentFault.message_injective hmessage] at hfault
  · intro h
    rw [h.stateOfArguments_eq]
    rfl

/-- With arguments in order, a call is the query that they give, errors of the engine included. Any
other call reports the first fault and leaves the world as it is, wherever the engine would fail. -/
theorem stateOfArguments_eq_stateAt_or_firstFault (args : List Json.Value) (v : E.World) :
    (∀ source stop, ArgumentsGive args source stop →
      stateOfArguments E w args = stateAt E w (encode source.toList) stop) ∧
    ((∃ text stop, (stateOfArguments E w args).run v = (stateAt E w text stop).run v) ↔
      ∃ source stop, ArgumentsGive args source stop) ∧
    (∀ fault, (stateOfArguments E w args).run v = (.error (.usage fault.message), v) ↔
      FirstFault args fault) ∧
    ((∃ source stop, ArgumentsGive args source stop) ∨ ∃ fault, FirstFault args fault) ∧
    stateOfArguments E w args = stateOfArguments E w (args.take 3) := by
  refine ⟨fun source stop h => h.stateOfArguments_eq E w, run_stateOfArguments_eq_stateAt_iff E w v,
    fun fault => run_stateOfArguments_eq_usage_iff E w v, arguments_cases args, ?_⟩
  rw [stateOfArguments, stateOfArguments, readArguments_take]

/-- Both coordinates are wrong. -/
example : readArguments [.string "a", .number ⟨true, ['1'], [], none⟩, .null] = .error .row := rfl

end Arguments
end CursorState
