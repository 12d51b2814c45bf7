import CursorState.Json.Number
import Mathlib.Algebra.Order.Field.Power
import Mathlib.Algebra.Order.Ring.Rat

/-! Decoded numbers as exact rationals. -/
namespace CursorState.Json

namespace Binary64

def value (x : Binary64) : ℚ :=
  x.significand * 2 ^ x.exponent

theorem value_nonneg (x : Binary64) : 0 ≤ x.value :=
  mul_nonneg (Nat.cast_nonneg _) (zpow_nonneg rfl _)

theorem ratio_denominator_pos (x : Binary64) : 0 < x.ratio.2 := by
  rw [ratio]
  simp only [Nat.shiftLeft_eq, Nat.one_mul]
  exact Nat.two_pow_pos _

theorem value_eq_ratio (x : Binary64) : x.value = (x.ratio.1 : ℚ) / x.ratio.2 := by
  obtain ⟨m, e⟩ := x
  cases e with
  | ofNat k => simp [value, ratio, Nat.shiftLeft_eq]
  | negSucc k => simp [value, ratio, Nat.shiftLeft_eq, zpow_negSucc, div_eq_mul_inv]

theorem toNat?_eq_some_iff {x : Binary64} {n : Nat} : x.toNat? = some n ↔ x.value = n := by
  have hpos : 0 < x.ratio.2 := x.ratio_denominator_pos
  have hne : (x.ratio.2 : ℚ) ≠ 0 := Nat.cast_ne_zero.mpr hpos.ne'
  have hvalue : x.value = n ↔ x.ratio.1 = n * x.ratio.2 := by
    rw [value_eq_ratio, div_eq_iff hne]
    norm_cast
  rw [hvalue, toNat?]
  constructor
  · intro h
    split at h
    · next hmod =>
      obtain rfl := Option.some.inj h
      exact (Nat.div_mul_cancel (Nat.dvd_of_mod_eq_zero hmod)).symm
    · cases h
  · intro h
    rw [h, Nat.mul_mod_left, if_pos rfl, Nat.mul_div_cancel n hpos]

end Binary64

namespace Number

def value : Number → ℚ
  | natural n => n.toNat
  | negative magnitude => -magnitude
  | double isNegative magnitude => if isNegative then -magnitude.value else magnitude.value

end Number
namespace NumberToken

variable {t : NumberToken} {m : Nat}

theorem pos_of_number?_eq_negative (h : t.number? = some (.negative m)) : 0 < m := by
  unfold number? at h
  simp only at h
  split at h
  · cases h
  · split at h
    · next hneg =>
      cases h
      exact hneg.2.2.1
    · cases hd : t.double? <;> simp [hd] at h

end NumberToken
end CursorState.Json
