import CursorState.Resolution

/-! The part of a text that a query parses: what stands before the cursor. Its length is the length
that an answered query tells. -/
namespace CursorState

section
variable (text : List UInt8) (stop : Point) (w : TabWidth)

theorem effectiveLength_eq_byteOffset : effectiveLength text stop w = byteOffset text stop.target w :=
  Nat.min_eq_left (byteOffset_le_length text stop.target w)

theorem effectiveLength_le_length : effectiveLength text stop w ≤ text.length :=
  Nat.min_le_right _ _

def parsedText : List UInt8 :=
  text.take (effectiveLength text stop w)

theorem length_parsedText : (parsedText text stop w).length = effectiveLength text stop w :=
  List.length_take_of_le (effectiveLength_le_length text stop w)

theorem resolve_congr (E : Engine) {text text' : List UInt8} {stop : Point} {w : TabWidth}
    (hlength : effectiveLength text' stop w = effectiveLength text stop w)
    (hparsed : parsedText text' stop w = parsedText text stop w) :
    resolve E w text' stop = resolve E w text stop := by
  simp only [parsedText, hlength] at hparsed
  simp only [resolve, hlength, hparsed]

end

/-- What every second action gives is what the two actions give. -/
theorem run_bind_of_forall {σ α β : Type} {first : StateM σ α} {second : α → StateM σ β}
    {P : β → Prop} (h : ∀ a v, P ((second a).run v).1) (v : σ) : P ((first >>= second).run v).1 :=
  h _ _

/-- `QueryEnds text stop w result`: a query ends with an error of the engine, or with an answer that
tells the length of the text before the cursor. -/
inductive QueryEnds (text : List UInt8) (stop : Point) (w : TabWidth) :
    Except QueryError Resolution → Prop
  | failed (e : EngineError) : QueryEnds text stop w (.error (.engine e))
  | answered (found : Found) : QueryEnds text stop w (.ok ⟨found, effectiveLength text stop w⟩)

theorem resolve_ends (E : Engine) (w : TabWidth) (text : List UInt8) (stop : Point)
    (v : E.World) : QueryEnds text stop w ((resolve E w text stop).run v).1 := by
  refine run_bind_of_forall (fun opened v => ?_) v
  cases opened with
  | error e => exact .failed e
  | ok session =>
    refine run_bind_of_forall (fun session v => run_bind_of_forall (fun session v => ?_) v) v
    refine run_bind_of_forall (fun parsed v => ?_) v
    obtain ⟨session, parsed⟩ := parsed
    cases parsed with
    | error e => exact run_bind_of_forall (fun _ _ => .failed e) v
    | ok tree =>
      refine run_bind_of_forall (fun found v => ?_) v
      cases tree with
      | none => exact run_bind_of_forall (fun _ _ => .answered found) v
      | some tree =>
        exact run_bind_of_forall (fun _ v => run_bind_of_forall (fun _ _ => .answered found) v) v

theorem effectiveLength_of_resolve {E : Engine} {w : TabWidth} {text : List UInt8} {stop : Point}
    {v : E.World} {r : Resolution} (h : ((resolve E w text stop).run v).1 = .ok r) :
    r.effectiveLength = effectiveLength text stop w := by
  have hends := resolve_ends E w text stop v
  rw [h] at hends
  cases hends
  rfl

end CursorState
