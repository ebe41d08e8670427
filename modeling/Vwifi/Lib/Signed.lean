import Mathlib.Algebra.Order.Ring.Abs
import Mathlib.Data.Int.Order.Basic

/-!
# Exact 32-bit arithmetic

Addition, subtraction and multiplication of signed 32-bit numbers wrap around. They
are exact when the exact result is representable.
-/

namespace Signed

set_option autoImplicit false

/-- A value of 32 bits with sign. -/
def Fits (n : Int) : Prop := -2 ^ 31 ≤ n ∧ n < 2 ^ 31

theorem fits_toInt (a : Int32) : Fits a.toInt := ⟨a.le_toInt, a.toInt_lt⟩

theorem bmod_of_fits {n : Int} (h : Fits n) : n.bmod (2 ^ 32) = n :=
  Int.bmod_eq_of_le h.1 h.2

theorem toInt_add_iff {a b : Int32} :
    (a + b).toInt = a.toInt + b.toInt ↔ Fits (a.toInt + b.toInt) := by
  constructor
  · intro h
    rw [← h]
    exact fits_toInt _
  · intro h
    rw [Int32.toInt_add, bmod_of_fits h]

theorem toInt_sub_iff {a b : Int32} :
    (a - b).toInt = a.toInt - b.toInt ↔ Fits (a.toInt - b.toInt) := by
  constructor
  · intro h
    rw [← h]
    exact fits_toInt _
  · intro h
    rw [Int32.toInt_sub, bmod_of_fits h]

theorem toInt_mul_iff {a b : Int32} :
    (a * b).toInt = a.toInt * b.toInt ↔ Fits (a.toInt * b.toInt) := by
  constructor
  · intro h
    rw [← h]
    exact fits_toInt _
  · intro h
    rw [Int32.toInt_mul, bmod_of_fits h]

/-- The square of a number that does not fit does not fit either. -/
theorem fits_of_sq_lt {n : Int} (h : n ^ 2 < 2 ^ 31) : Fits n := by
  have hsquare : n ^ 2 < (46341 : Int) ^ 2 := by omega
  have hlt := abs_lt_of_sq_lt_sq hsquare (by decide)
  obtain ⟨hlow, hhigh⟩ := abs_lt.mp hlt
  constructor <;> omega

/-! ## The same bits without the sign -/

theorem toInt_eq_cond (a : Int32) : a.toInt =
    if 2 * a.toUInt32.toNat < 2 ^ 32 then (a.toUInt32.toNat : Int) else a.toUInt32.toNat - 2 ^ 32 :=
  BitVec.toInt_eq_toNat_cond a.toBitVec

theorem toUInt32_of_nonneg {a : Int32} (h : 0 ≤ a.toInt) : a.toUInt32.toNat = a.toInt.toNat := by
  have hcond := toInt_eq_cond a
  have hlt := a.toUInt32.toNat_lt
  split at hcond
  · omega
  · omega

theorem toUInt32_of_neg {a : Int32} (h : a.toInt < 0) : 2 ^ 31 ≤ a.toUInt32.toNat := by
  have hcond := toInt_eq_cond a
  split at hcond
  · omega
  · omega

end Signed
