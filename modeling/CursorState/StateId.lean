import CursorState.Json.Value

/-! Identifiers of automaton states. -/
namespace CursorState
open Text

/-- A state of the automaton of some grammar. It means something only together with that grammar. -/
structure StateId where
  number : UInt16
  deriving DecidableEq, Repr, Inhabited, Hashable

namespace StateId

def ofNat (n : Nat) : StateId :=
  ⟨UInt16.ofNat n⟩

def toNat (s : StateId) : Nat :=
  s.number.toNat

@[simp] theorem toNat_inj {s t : StateId} : s.toNat = t.toNat ↔ s = t := by
  cases s
  cases t
  simp [toNat, UInt16.toNat_inj]

theorem toNat_lt (s : StateId) : s.toNat < UInt16.size :=
  s.number.toNat_lt

theorem toNat_ofNat {n : Nat} (h : n < UInt16.size) : (ofNat n).toNat = n :=
  Nat.mod_eq_of_lt h

@[simp] theorem ofNat_toNat (s : StateId) : ofNat s.toNat = s :=
  toNat_inj.1 (toNat_ofNat s.toNat_lt)

def display (s : StateId) : String :=
  s.toNat.repr

def toJson (s : StateId) : Json.Value :=
  .number (.ofNat s.toNat)

/-- Only a number without sign, fraction and exponent is read. -/
def ofJson? : Json.Value → Option StateId
  | .number token =>
    if token.negative ∨ ¬ token.isInteger then none
    else
      let n := digitsValue token.integer
      if n < UInt16.size then some (ofNat n) else none
  | _ => none

end StateId
end CursorState
