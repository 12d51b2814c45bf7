import CursorState.Json.Value
import CursorState.Resolution
import CursorState.Text.Utf8

/-! Queries from editors: the text, the row and the column come as values of JSON. -/
namespace CursorState
open Text

inductive ArgumentFault where
  | tooFew
  | source
  | row
  | column
  deriving DecidableEq, Repr

def ArgumentFault.message : ArgumentFault → String
  | tooFew => "Args: sourceCode, row, col"
  | source => "Args: sourceCode, row, col (sourceCode must be a string)"
  | row => "Args: sourceCode, row, col (row must be a non-negative integer)"
  | column => "Args: sourceCode, row, col (col must be a non-negative integer)"

/-- The whole number from 0 on that a decoded number is equal to, if there is one. -/
def Json.Number.toNat? : Json.Number → Option Nat
  | .natural n => some n.toNat
  | .negative _ => none
  | .double isNegative magnitude => do
    let n ← magnitude.toNat?
    if isNegative ∧ n ≠ 0 then none else some n

/-- A coordinate: a number that is equal to a 32-bit word. -/
def coordinate? : Json.Value → Option UInt32
  | .number token => do
    let n ← (← token.number?).toNat?
    if n < UInt32.size then some (UInt32.ofNat n) else none
  | _ => none

/-- The source text and the cursor of a call. Arguments after the third are ignored; of several
faults the first counts. -/
def readArguments (args : List Json.Value) : Except ArgumentFault (List UInt8 × Point) :=
  match args with
  | source :: row :: column :: _ =>
    match source, coordinate? row, coordinate? column with
    | .string source, some row, some column => .ok (encode source.toList, ⟨row, column⟩)
    | .string _, none, _ => .error .row
    | .string _, some _, none => .error .column
    | _, _, _ => .error .source
  | _ => .error .tooFew

def stateAt (E : Engine) (w : TabWidth) (text : List UInt8) (stop : Point) :
    StateM E.World (Except QueryError StateId) := do
  return (← resolve E w text stop).map fun r => r.found.state

/-- The state for the arguments of a call. They are checked before anything is acquired. -/
def stateOfArguments (E : Engine) (w : TabWidth) (args : List Json.Value) :
    StateM E.World (Except QueryError StateId) :=
  match readArguments args with
  | .error fault => return .error (.usage fault.message)
  | .ok (text, stop) => stateAt E w text stop

end CursorState
