import CursorState.StateTable.Basic
import CursorState.StateTable.DumpLine
import CursorState.StateTable.ItemKey
import CursorState.Text.Lines

/-! Reading a textual state dump. -/
namespace CursorState
open Text

/-- Why a dump is refused: a number does not fit. Lines are counted from 1, and the number is given
as it is written. -/
inductive DumpError where
  | stateOutOfRange (line : Nat) (number : String)
  | valueOutOfRange (line : Nat) (number : String)
  deriving DecidableEq, Repr

def DumpError.message : DumpError → String
  | stateOutOfRange line number => s!"line {line}: state {number} is out of range"
  | valueOutOfRange line number => s!"line {line}: item value {number} is out of range"

/-- What was read so far, and the state that items belong to. -/
structure DumpReading where
  table : StateTable
  current : Option StateId

namespace DumpReading

def start : DumpReading := ⟨.empty, none⟩

/-- Read line number `line`. Items before the first header belong to no state and are ignored. -/
def readLine (r : DumpReading) (line : Nat) (content : List Char) : Except DumpError DumpReading :=
  match DumpLine.ofChars content, r.current with
  | .header digits, _ =>
    match readBelow UInt16.size digits with
    | some n => .ok ⟨r.table.append (.ofNat n) [], some (.ofNat n)⟩
    | none => .error (.stateOutOfRange line (String.ofList digits))
  | .item inner digits, some state =>
    match readBelow UInt64.size digits with
    | some n =>
      let item := ⟨String.ofList (normalizeKey inner), UInt64.ofNat n⟩
      .ok ⟨r.table.append state [item], some state⟩
    | none => .error (.valueOutOfRange line (String.ofList digits))
  | .item _ _, none => .ok r
  | .other, _ => .ok r

/-- Read lines, of which the first has number `line`, up to the first one that is refused. -/
def readLines (r : DumpReading) (line : Nat) : List (List Char) → Except DumpError DumpReading
  | [] => .ok r
  | content :: rest =>
    match r.readLine line content with
    | .ok r => r.readLines (line + 1) rest
    | .error e => .error e

end DumpReading

namespace StateTable

def ofLines (lines : List (List Char)) : Except DumpError StateTable :=
  (DumpReading.start.readLines 1 lines).map DumpReading.table

/-- The table of a dump. A repeated header goes on with its state. -/
def ofDump (text : String) : Except DumpError StateTable :=
  ofLines (splitLines text.toList)

end StateTable
end CursorState
