/-! UTF-8: the bytes of a text, and a reading of bytes that need not be UTF-8. -/
namespace CursorState.Text

def encode (cs : List Char) : List UInt8 :=
  cs.flatMap String.utf8EncodeChar

/-- U+FFFD, which stands for bytes that are no character. -/
def replacement : Char := '\ufffd'

/-- How many continuation bytes a first byte asks for, and the range of the first of them. The
ranges leave out overlong forms, surrogates and what lies beyond U+10FFFF. -/
def leadByte? (b : UInt8) : Option (Nat × UInt8 × UInt8) :=
  if 0xC2 ≤ b ∧ b ≤ 0xDF then some (1, 0x80, 0xBF)
  else if b = 0xE0 then some (2, 0xA0, 0xBF)
  else if b = 0xED then some (2, 0x80, 0x9F)
  else if 0xE1 ≤ b ∧ b ≤ 0xEF then some (2, 0x80, 0xBF)
  else if b = 0xF0 then some (3, 0x90, 0xBF)
  else if b = 0xF4 then some (3, 0x80, 0x8F)
  else if 0xF1 ≤ b ∧ b ≤ 0xF3 then some (3, 0x80, 0xBF)
  else none

def leadBits (count : Nat) (b : UInt8) : Nat :=
  b.toNat % (1 <<< (6 - count))

/-- Read `count` continuation bytes, the first between `low` and `high`, and append their bits to
`bits`. The result is nothing if one is missing; the bytes from there on are left in any case. -/
def readContinuation : Nat → UInt8 → UInt8 → Nat → List UInt8 → Option Nat × List UInt8
  | 0, _, _, bits, bytes => (some bits, bytes)
  | _ + 1, _, _, _, [] => (none, [])
  | count + 1, low, high, bits, b :: bytes =>
    if low ≤ b ∧ b ≤ high then
      readContinuation count 0x80 0xBF (64 * bits + b.toNat % 64) bytes
    else (none, b :: bytes)

theorem readContinuation_length_le (count : Nat) (low high : UInt8) (bits : Nat)
    (bytes : List UInt8) :
    (readContinuation count low high bits bytes).2.length ≤ bytes.length := by
  induction count generalizing low high bits bytes with
  | zero => exact Nat.le_refl _
  | succ count ih =>
    cases bytes with
    | nil => exact Nat.le_refl _
    | cons b bytes =>
      unfold readContinuation
      split
      · exact Nat.le_succ_of_le (ih _ _ _ _)
      · exact Nat.le_refl _

/-- The characters of a byte string; each longest start of a character that is cut short, and each
byte that starts none, becomes one replacement character. -/
def decode : List UInt8 → List Char
  | [] => []
  | b :: bytes =>
    if b < 0x80 then Char.ofNat b.toNat :: decode bytes
    else
      match leadByte? b with
      | none => replacement :: decode bytes
      | some (count, low, high) =>
        let found := readContinuation count low high (leadBits count b) bytes
        match found.1 with
        | none => replacement :: decode found.2
        | some code => Char.ofNat code :: decode found.2
  termination_by bytes => bytes.length
  decreasing_by
    all_goals simp only [List.length_cons]
    · omega
    · omega
    · exact Nat.lt_succ_of_le (readContinuation_length_le ..)
    · exact Nat.lt_succ_of_le (readContinuation_length_le ..)

end CursorState.Text
