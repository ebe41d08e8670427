import Mathlib.Algebra.Ring.Int.Defs
import Mathlib.Algebra.Ring.Nat
import Mathlib.Data.List.Basic
import Mathlib.Order.Lattice

/-!
# Little-endian byte strings

`image width n` is what an unsigned integer of `width` bytes looks like in
memory and `value` reads such an image back. Both are total: `image` keeps the
number modulo `256 ^ width`, and `value` takes the whole list it is given.
-/

namespace LittleEndian

set_option autoImplicit false

def image : Nat → Nat → List UInt8
  | 0, _ => []
  | width + 1, n => UInt8.ofNat n :: image width (n / 256)

def value (bytes : List UInt8) : Nat :=
  bytes.foldr (fun b high => b.toNat + 256 * high) 0

@[simp] theorem value_nil : value [] = 0 := rfl

theorem value_cons (b : UInt8) (bytes : List UInt8) :
    value (b :: bytes) = b.toNat + 256 * value bytes := rfl

@[simp] theorem image_length (width n : Nat) : (image width n).length = width := by
  induction width generalizing n with
  | zero => rfl
  | succ width ih => rw [image, List.length_cons, ih]

theorem value_image (width n : Nat) : value (image width n) = n % 256 ^ width := by
  induction width generalizing n with
  | zero => simp [image, Nat.mod_one]
  | succ width ih =>
    calc value (image (width + 1) n)
        = n % 256 + 256 * (n / 256 % 256 ^ width) := by
          rw [image, value_cons, ih, UInt8.toNat_ofNat']
      _ = n % (256 * 256 ^ width) := Nat.mod_mul.symm
      _ = n % 256 ^ (width + 1) := by rw [Nat.pow_succ']

theorem value_image_of_lt {width n : Nat} (h : n < 256 ^ width) :
    value (image width n) = n := by
  rw [value_image, Nat.mod_eq_of_lt h]

theorem value_lt (bytes : List UInt8) : value bytes < 256 ^ bytes.length := by
  induction bytes with
  | nil => exact Nat.one_pos
  | cons b bytes ih =>
    have hb := b.toNat_lt
    rw [value_cons, List.length_cons, Nat.pow_succ']
    omega

theorem value_take_le (bytes : List UInt8) (n : Nat) : value (bytes.take n) ≤ value bytes := by
  induction bytes generalizing n with
  | nil => exact Nat.le_of_eq (congrArg value List.take_nil)
  | cons b bytes ih =>
    cases n with
    | zero => exact Nat.zero_le _
    | succ n =>
      have hrest := ih n
      rw [List.take_succ_cons, value_cons, value_cons]
      omega

end LittleEndian
