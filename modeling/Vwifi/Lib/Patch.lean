import Mathlib.Data.List.Basic

/-!
# Overwriting a part of a list

`patch` puts a list in the place of as many elements of another one. Two lists are the
same outside of a window when all their other elements are.
-/

namespace Patch

set_option autoImplicit false

universe u

variable {α : Type u} {xs ys zs : List α} {start stop k n offset size : Nat}

/-- Two lists that agree on a window agree on each part of it. -/
theorem window_part (h : (xs.drop k).take n = (ys.drop k).take n) (hin : offset + size ≤ n) :
    (xs.drop (k + offset)).take size = (ys.drop (k + offset)).take size := by
  have hpart := congrArg (fun zs => (zs.drop offset).take size) h
  rw [List.drop_take, List.drop_take, List.take_take, List.take_take, List.drop_drop,
    List.drop_drop, Nat.min_eq_left (by omega)] at hpart
  exact hpart

/-- `ys` in the place of the elements of `xs` from `k` on. -/
def patch (xs : List α) (k : Nat) (ys : List α) : List α :=
  xs.take k ++ ys ++ xs.drop (k + ys.length)

structure SameOutside (start stop : Nat) (xs ys : List α) : Prop where
  length : ys.length = xs.length
  same : ∀ i, i < start ∨ stop ≤ i → ys[i]? = xs[i]?

namespace SameOutside

theorem mono {start' stop' : Nat} (h : SameOutside start stop xs ys) (hstart : start' ≤ start)
    (hstop : stop ≤ stop') : SameOutside start' stop' xs ys := by
  refine ⟨h.length, fun i hi => h.same i ?_⟩
  rcases hi with hi | hi
  · exact .inl (by omega)
  · exact .inr (by omega)

theorem window (h : SameOutside start stop xs ys) (hout : k + n ≤ start ∨ stop ≤ k) :
    (ys.drop k).take n = (xs.drop k).take n := by
  apply List.ext_getElem?
  intro i
  by_cases hi : i < n
  · rw [List.getElem?_take_of_lt hi, List.getElem?_take_of_lt hi, List.getElem?_drop,
      List.getElem?_drop]
    apply h.same
    rcases hout with hout | hout
    · exact .inl (by omega)
    · exact .inr (by omega)
  · rw [List.getElem?_take, List.getElem?_take, if_neg hi, if_neg hi]

theorem drop_eq (h : SameOutside start stop xs ys) (hstop : stop ≤ k) : ys.drop k = xs.drop k := by
  apply List.ext_getElem?
  intro i
  rw [List.getElem?_drop, List.getElem?_drop]
  exact h.same _ (.inr (by omega))

theorem drop (h : SameOutside start stop xs ys) (hstart : k ≤ start) :
    SameOutside (start - k) (stop - k) (xs.drop k) (ys.drop k) := by
  constructor
  · rw [List.length_drop, List.length_drop, h.length]
  · intro i hi
    rw [List.getElem?_drop, List.getElem?_drop]
    apply h.same
    rcases hi with hi | hi
    · exact .inl (by omega)
    · exact .inr (by omega)

end SameOutside

theorem patch_length (h : k + zs.length ≤ xs.length) : (patch xs k zs).length = xs.length := by
  rw [patch, List.length_append, List.length_append, List.length_take, List.length_drop]
  omega

theorem patch_inside (h : k + zs.length ≤ xs.length) :
    ((patch xs k zs).drop k).take zs.length = zs := by
  have hk : (xs.take k).length = k := by
    rw [List.length_take]
    omega
  rw [patch, List.append_assoc, List.drop_append_of_le_length (Nat.le_of_eq hk.symm),
    List.drop_of_length_le (Nat.le_of_eq hk), List.nil_append]
  exact List.take_left

theorem patch_sameOutside (h : k + zs.length ≤ xs.length) :
    SameOutside k (k + zs.length) xs (patch xs k zs) := by
  have hk : (xs.take k).length = k := by
    rw [List.length_take]
    omega
  refine ⟨patch_length h, fun i hi => ?_⟩
  rcases hi with hi | hi
  · rw [patch, List.append_assoc, List.getElem?_append_left (by omega),
      List.getElem?_take_of_lt hi]
  · rw [patch, List.getElem?_append_right (by rw [List.length_append]; omega),
      List.getElem?_drop, List.length_append, hk]
    congr 1
    omega

/-- A list that is the same outside of the window and has `zs` in it is the patched one. -/
theorem SameOutside.eq_patch (h : SameOutside k (k + zs.length) xs ys)
    (hwindow : (ys.drop k).take zs.length = zs) : ys = patch xs k zs := by
  have hstart := h.window (k := 0) (n := k) (.inl (by omega))
  rw [List.drop_zero, List.drop_zero] at hstart
  rw [patch, ← hstart, ← h.drop_eq (Nat.le_refl _), List.append_assoc]
  conv_lhs => rw [← List.take_append_drop k ys]
  congr 1
  conv_lhs => rw [← List.take_append_drop zs.length (ys.drop k), hwindow, List.drop_drop]

theorem patch_self (h : (xs.drop k).take zs.length = zs) : patch xs k zs = xs :=
  (SameOutside.eq_patch ⟨rfl, fun _ _ => rfl⟩ h).symm

end Patch
