import CursorState.Proofs.Resolution.Counting
import CursorState.ServiceDesk

/-! What one call to a service over the counting engine answers, and what it leaves in the
ledger. -/
namespace CursorState

namespace ServiceCall

def request? : ServiceCall → Option (List UInt8 × Point)
  | resolve text stop | stateAt text stop => some (text, stop)
  | arguments args => (readArguments args).toOption

def answer (c : ServiceCall) (r : Resolution) : ServiceAnswer :=
  match c with
  | resolve _ _ => .resolution r
  | stateAt _ _ | arguments _ => .state r.found.state

end ServiceCall

/-- `CallEnds w point c l answer l'`: with the tab width `w` and the failure point `point`, the call
`c` gives `answer` and takes the ledger from `l` to `l'`. -/
inductive CallEnds (w : TabWidth) (point : FailurePoint) (c : ServiceCall) (l : Ledger) :
    ServiceAnswer → Ledger → Prop
  | usage {args : List Json.Value} {fault : ArgumentFault} (hc : c = .arguments args)
      (hargs : readArguments args = .error fault) :
      CallEnds w point c l (.failed (.usage fault.message)) l
  | session {request : List UInt8 × Point} (hc : c.request? = some request)
      (hpoint : point = .session) :
      CallEnds w point c l (.failed (.engine (.session "out of parsers"))) l
  | parse {text : List UInt8} {stop : Point} (hc : c.request? = some (text, stop))
      (hpoint : point = .parse) :
      CallEnds w point c l (.failed (.engine (.parse "engine gave up"))) (l.afterFailedParse stop)
  | answered {text : List UInt8} {stop : Point} (hc : c.request? = some (text, stop))
      (hpoint : point = .nowhere) :
      CallEnds w point c l (c.answer (countingResolution w text stop))
        (l.afterAnswer stop (parsedText text stop w))

namespace ServiceDesk

theorem ofResult_map {α β : Type} (f : β → ServiceAnswer) (g : α → β) (e : Except QueryError α) :
    ServiceAnswer.ofResult f (e.map g) = ServiceAnswer.ofResult (f ∘ g) e := by
  cases e with
  | error e => rfl
  | ok a => rfl

variable {w : TabWidth} {text : List UInt8} {stop : Point}

theorem call_stateAt (v : CountingWorld) :
    (call w (.stateAt text stop)).run v =
      (ServiceAnswer.ofResult (fun r => .state r.found.state)
          ((resolve countingEngine w text stop).run v).1,
        ((resolve countingEngine w text stop).run v).2) :=
  congrArg (·, ((resolve countingEngine w text stop).run v).2)
    (ofResult_map ServiceAnswer.state (fun r : Resolution => r.found.state) _)

theorem call_arguments_of_ok {args : List Json.Value} (h : readArguments args = .ok (text, stop)) :
    call w (.arguments args) = call w (.stateAt text stop) := by
  simp only [call, stateOfArguments, h]

theorem call_arguments_of_error {args : List Json.Value} {fault : ArgumentFault}
    (h : readArguments args = .error fault) :
    call w (.arguments args) = pure (.failed (.usage fault.message)) := by
  simp only [call, stateOfArguments, h]
  rfl

/-- A call whose arguments are in order ends as its query does. -/
theorem call_of_request {c : ServiceCall} (h : c.request? = some (text, stop))
    (v : CountingWorld) :
    (call w c).run v =
      (ServiceAnswer.ofResult c.answer ((resolve countingEngine w text stop).run v).1,
        ((resolve countingEngine w text stop).run v).2) := by
  cases c with
  | resolve text' stop' =>
    obtain ⟨rfl, rfl⟩ := Prod.mk.inj (Option.some.inj h)
    rfl
  | stateAt text' stop' =>
    obtain ⟨rfl, rfl⟩ := Prod.mk.inj (Option.some.inj h)
    exact call_stateAt v
  | arguments args =>
    simp only [ServiceCall.request?] at h
    cases hargs : readArguments args with
    | error fault =>
      rw [hargs] at h
      cases h
    | ok request =>
      rw [hargs] at h
      obtain rfl := Option.some.inj h
      rw [call_arguments_of_ok hargs]
      exact call_stateAt v

theorem call_ends (w : TabWidth) (c : ServiceCall) (v : CountingWorld) :
    CallEnds w v.failAt c v.ledger ((call w c).run v).1 ((call w c).run v).2.ledger := by
  cases hc : c.request? with
  | none =>
    cases c with
    | resolve text stop => cases hc
    | stateAt text stop => cases hc
    | arguments args =>
      simp only [ServiceCall.request?] at hc
      cases hargs : readArguments args with
      | ok request =>
        rw [hargs] at hc
        cases hc
      | error fault =>
        rw [call_arguments_of_error hargs]
        exact .usage rfl hargs
  | some request =>
    obtain ⟨text, stop⟩ := request
    rw [call_of_request hc, resolve_countingEngine]
    cases hpoint : v.failAt with
    | nowhere => exact .answered hc rfl
    | session => exact .session hc rfl
    | parse => exact .parse hc rfl

end ServiceDesk
end CursorState
