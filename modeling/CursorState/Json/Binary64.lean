/-! Nonnegative finite doubles as exact numbers: a ratio is rounded to 53 significant bits, a half
goes to the even neighbour, and nothing lies below the subnormal grid. -/
namespace CursorState.Json

structure Binary64 where
  significand : Nat
  exponent : Int
  deriving DecidableEq, Repr, Inhabited

/-- `num / den` rounded to a natural number, a half to the even neighbour. -/
def roundHalfEven (num den : Nat) : Nat :=
  let q := num / den
  let twice := 2 * (num % den)
  if twice < den then q
  else if den < twice then q + 1
  else if q % 2 = 0 then q else q + 1

namespace Binary64

def zero : Binary64 := ⟨0, 0⟩

def isZero (x : Binary64) : Bool :=
  x.significand == 0

def ratio (x : Binary64) : Nat × Nat :=
  (x.significand <<< x.exponent.toNat, 1 <<< (-x.exponent).toNat)

/-- The grid on which `num / den` is rounded: the exponent that leaves 53 bits before the point,
or the lowest one there is. -/
def gridExponent (num den : Nat) : Int :=
  let e : Int := (num.log2 : Int) - den.log2 - 53
  let e := if den <<< (53 + e.toNat) ≤ num <<< (-e).toNat then e + 1 else e
  max e (-1074)

/-- The double nearest to `num / den`, or nothing if that lies beyond the largest one. -/
def ofRatio? (num den : Nat) : Option Binary64 :=
  if num = 0 then some zero
  else
    let e := gridExponent num den
    let m := roundHalfEven (num <<< (-e).toNat) (den <<< e.toNat)
    if 1 <<< 1024 ≤ m <<< e.toNat then none else some ⟨m, e⟩

def ofNat? (n : Nat) : Option Binary64 :=
  ofRatio? n 1

def mul? (x y : Binary64) : Option Binary64 :=
  ofRatio? (x.ratio.1 * y.ratio.1) (x.ratio.2 * y.ratio.2)

def div? (x y : Binary64) : Option Binary64 :=
  ofRatio? (x.ratio.1 * y.ratio.2) (x.ratio.2 * y.ratio.1)

def toNat? (x : Binary64) : Option Nat :=
  if x.ratio.1 % x.ratio.2 = 0 then some (x.ratio.1 / x.ratio.2) else none

end Binary64
end CursorState.Json
