import CursorState.Json.Number

/-! JSON values. -/
namespace CursorState.Json

/-- A JSON value; the members of an object keep their order, and numbers the form in
which they are written. -/
inductive Value where
  | null
  | bool (b : Bool)
  | number (token : NumberToken)
  | string (s : String)
  | array (elements : List Value)
  | object (members : List (String × Value))
  deriving Inhabited, Repr

namespace Value

def member? (v : Value) (key : String) : Option Value :=
  match v with
  | object members => members.lookup key
  | _ => none

end Value
end CursorState.Json
