import CursorState.Json.Binary64
import CursorState.Text.DecimalDigit

/-! JSON numbers: the token as it is written, and the number that it is decoded to. -/
namespace CursorState.Json
open Text

/-- A decoded number. Only a token without fraction and exponent can become a whole number. -/
inductive Number where
  | natural (n : UInt64)
  /-- The number `-magnitude`, with `0 < magnitude ≤ 2 ^ 63`. -/
  | negative (magnitude : Nat)
  | double (negative : Bool) (magnitude : Binary64)
  deriving DecidableEq, Repr

/-- The parts of a number token; digits are kept as they are written, and an absent fraction has
none. -/
structure NumberToken where
  negative : Bool
  integer : List Char
  fraction : List Char
  /-- Sign (`true` is minus) and digits. -/
  exponent : Option (Bool × List Char)
  deriving DecidableEq, Repr

/-- Append digits to a significand for as long as it stays a 64-bit word; the digits that no
longer fit are left over. -/
def takeDigits (significand : Nat) : List Char → Nat × List Char
  | [] => (significand, [])
  | c :: cs =>
    let next := 10 * significand + digitValue c
    if next < UInt64.size then takeDigits next cs else (significand, c :: cs)

def maxPower : Nat := 308

/-- `x / 10 ^ k`, rounded after every step of at most `maxPower` places. -/
def scaleDown (x : Binary64) (k : Nat) : Option Binary64 :=
  if x.isZero then some x
  else if _h : k ≤ maxPower then do x.div? (← Binary64.ofNat? (Nat.pow 10 k))
  else do scaleDown (← x.div? (← Binary64.ofNat? (Nat.pow 10 maxPower))) (k - maxPower)
  termination_by k
  decreasing_by simp [maxPower] at *; omega

def scaleUp (x : Binary64) (k : Nat) : Option Binary64 :=
  if k ≤ maxPower then do x.mul? (← Binary64.ofNat? (Nat.pow 10 k))
  else if x.isZero then some x
  else none

/-- `significand * 10 ^ exponent`, the significand and the result each rounded. -/
def scale (significand : Nat) (exponent : Int) : Option Binary64 := do
  let x ← Binary64.ofNat? significand
  if 0 ≤ exponent then scaleUp x exponent.toNat else scaleDown x (-exponent).toNat

namespace NumberToken

def ofNat (n : Nat) : NumberToken :=
  ⟨false, Nat.toDigits 10 n, [], none⟩

def isInteger (t : NumberToken) : Bool :=
  t.fraction.isEmpty && t.exponent.isNone

def writtenExponent (t : NumberToken) : Int :=
  match t.exponent with
  | none => 0
  | some (true, digits) => -(digitsValue digits : Int)
  | some (false, digits) => digitsValue digits

/-- The double of a token. The significand is the longest run of digits that fits a word;
left-over digits before the point count as places, those after it are dropped. -/
def double? (t : NumberToken) : Option Binary64 :=
  let (whole, beyond) := takeDigits 0 t.integer
  let (significand, dropped) := takeDigits whole t.fraction
  scale significand (t.writtenExponent + beyond.length - (t.fraction.length - dropped.length : Nat))

/-- The number of a token, or nothing if it is too large for a double. -/
def number? (t : NumberToken) : Option Number :=
  let n := digitsValue t.integer
  if t.isInteger ∧ ¬ t.negative ∧ n < UInt64.size then some (.natural (UInt64.ofNat n))
  else if t.isInteger ∧ t.negative ∧ 0 < n ∧ 2 * n ≤ UInt64.size then some (.negative n)
  else t.double?.map (.double t.negative)

end NumberToken
end CursorState.Json
