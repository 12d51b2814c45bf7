import CursorState.Engine.Recovery
import CursorState.Text.Blank
import CursorState.Text.DecimalDigit

/-! What a parser log tells about the state that the parser is in. -/
namespace CursorState
open Text

/-- The last state shifted to outside error recovery, and how many tokens were skipped since. -/
structure ShiftRecord where
  last : Option StateId
  skipped : UInt32
  deriving DecidableEq, Repr

def stripStart (start cs : List Char) : Option (List Char) :=
  if start.isPrefixOf cs then some (cs.drop start.length) else none

/-- A state number: ASCII digits, perhaps after one plus sign. -/
def stateNumber? (cs : List Char) : Option Nat :=
  match cs with
  | '+' :: digits => readBelow UInt16.size digits
  | digits => readBelow UInt16.size digits

/-- The state that a log line shifts to. States 0 and 65535 are no states of a grammar. -/
def shiftTarget? (line : String) : Option StateId := do
  let rest ← stripStart "shift state:".toList line.toList
  let n ← stateNumber? (trim rest)
  if n = 0 ∨ n = 65535 then none else some (.ofNat n)

def isSkip (line : String) : Bool :=
  "skip_token".toList.isPrefixOf line.toList

namespace ShiftRecord

def empty : ShiftRecord := ⟨none, 0⟩

def observe (r : ShiftRecord) (line : String) : ShiftRecord :=
  match shiftTarget? line with
  | some state => ⟨some state, 0⟩
  | none => if isSkip line then ⟨r.last, UInt32.ofNatClamp (r.skipped.toNat + 1)⟩ else r

def ofLog (lines : List String) : ShiftRecord :=
  lines.foldl observe empty

/-- The closest state from which the parser can go on. Where all tokens were skipped, only the
start state is left. -/
def found (r : ShiftRecord) : Found :=
  match r.last with
  | some state => if r.skipped = 0 then .exact state else .backtrack state r.skipped
  | none => if r.skipped = 0 then .initial else .backtrack (.ofNat 1) r.skipped

end ShiftRecord
end CursorState
