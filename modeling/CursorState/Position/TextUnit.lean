/-! The units of a byte text: what a cursor steps over at once. The text need not be valid UTF-8. -/
namespace CursorState

/-- A line end, a tab, or a character of one byte and its continuation bytes. -/
inductive TextUnit where
  | lineFeed
  | carriageReturnLineFeed
  | tab
  | character (continuation : Nat)
  deriving DecidableEq, Repr

namespace TextUnit

def size : TextUnit → Nat
  | lineFeed => 1
  | carriageReturnLineFeed => 2
  | tab => 1
  | character continuation => continuation + 1

theorem size_pos (u : TextUnit) : 0 < u.size := by
  cases u <;> simp [size]

def endsLine : TextUnit → Bool
  | lineFeed | carriageReturnLineFeed => true
  | tab | character _ => false

end TextUnit

def isContinuation (b : UInt8) : Bool :=
  b &&& 0xC0 == 0x80

/-- How many continuation bytes belong to a character whose first byte is `b`: all that follow a
byte from `C0` on, none after any other byte. -/
def continuationLength (b : UInt8) (rest : List UInt8) : Nat :=
  if 0xC0 ≤ b then (rest.takeWhile isContinuation).length else 0

theorem continuationLength_le (b : UInt8) (rest : List UInt8) :
    continuationLength b rest ≤ rest.length := by
  unfold continuationLength
  split
  · exact (List.takeWhile_prefix _).length_le
  · exact Nat.zero_le _

/-- The units of a text, in order. A carriage return is a line end only before a line feed. -/
def units : List UInt8 → List TextUnit
  | [] => []
  | b :: rest =>
    if b = 0x0A then .lineFeed :: units rest
    else if b = 0x0D ∧ rest.head? = some 0x0A then .carriageReturnLineFeed :: units rest.tail
    else if b = 0x09 then .tab :: units rest
    else .character (continuationLength b rest) :: units (rest.drop (continuationLength b rest))
  termination_by text => text.length
  decreasing_by
    all_goals simp only [List.length_cons, List.length_tail, List.length_drop]
    all_goals omega

def unitsSize : List TextUnit → Nat
  | [] => 0
  | u :: us => u.size + unitsSize us

@[simp] theorem unitsSize_nil : unitsSize [] = 0 := rfl

@[simp] theorem unitsSize_cons (u : TextUnit) (us : List TextUnit) :
    unitsSize (u :: us) = u.size + unitsSize us := rfl

@[simp] theorem unitsSize_units (text : List UInt8) : unitsSize (units text) = text.length := by
  fun_induction units text with
  | case1 => rfl
  | case2 rest ih => simp [TextUnit.size, ih]; omega
  | case3 b rest _ h ih =>
    cases rest with
    | nil => simp at h
    | cons c cs =>
      simp only [List.tail_cons] at ih
      simp [TextUnit.size, ih]
      omega
  | case4 rest _ _ ih => simp [TextUnit.size, ih]; omega
  | case5 b rest _ _ _ ih =>
    have := continuationLength_le b rest
    simp [TextUnit.size, ih]
    omega

end CursorState
