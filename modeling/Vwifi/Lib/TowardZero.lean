import Mathlib.Algebra.Order.Floor.Ring

/-!
# Conversion to an integer toward zero
-/

namespace TowardZero

set_option autoImplicit false

universe u

variable {K : Type u} [Ring K] [LinearOrder K] [FloorRing K] {x y : K}

def towardZero (x : K) : Int := if 0 ≤ x then ⌊x⌋ else ⌈x⌉

theorem towardZero_nonneg (h : 0 ≤ x) : 0 ≤ towardZero x := by
  rw [towardZero, if_pos h]
  exact Int.floor_nonneg.mpr h

theorem towardZero_mono (h : x ≤ y) : towardZero x ≤ towardZero y := by
  by_cases hy : 0 ≤ y
  · by_cases hx : 0 ≤ x
    · rw [towardZero, towardZero, if_pos hx, if_pos hy]
      exact Int.floor_mono h
    · have hceil : ⌈x⌉ ≤ 0 := Int.ceil_le.mpr (by rw [Int.cast_zero]; exact (not_le.mp hx).le)
      rw [towardZero, if_neg hx]
      exact hceil.trans (towardZero_nonneg hy)
  · have hx : ¬ 0 ≤ x := fun hx => hy (hx.trans h)
    rw [towardZero, towardZero, if_neg hx, if_neg hy]
    exact Int.ceil_mono h

@[simp] theorem towardZero_intCast [IsStrictOrderedRing K] (n : Int) : towardZero (n : K) = n := by
  rw [towardZero]
  split
  · exact Int.floor_intCast n
  · exact Int.ceil_intCast n

/-- Below zero the conversion rounds up. -/
theorem towardZero_le_iff [IsStrictOrderedRing K] {n : Int} (hn : n < 0) :
    towardZero x ≤ n ↔ x ≤ n := by
  by_cases h : 0 ≤ x
  · have hcast : (n : K) < 0 := Int.cast_lt_zero.mpr hn
    have hnonneg := towardZero_nonneg h
    constructor
    · intro hle
      omega
    · intro hle
      exact absurd (hle.trans_lt hcast) (not_lt.mpr h)
  · rw [towardZero, if_neg h]
    exact Int.ceil_le

end TowardZero
