/-! Diagnostic events: what a run reports beside its answer. -/
namespace CursorState

inductive EventLevel where
  | debug
  | trace
  deriving DecidableEq, Repr

structure Event where
  level : EventLevel
  message : String
  fields : List (String × String) := []
  deriving DecidableEq, Repr

end CursorState
