import Mathlib.Logic.Function.Basic

/-!
# Counting the members of a family

How many members of a list of indices have a property, and what becomes of the
number when one member changes.
-/

namespace Tally

set_option autoImplicit false

variable {ι α : Type*} {p : α → Bool} {members : List ι} {f g : ι → α}

def tally (p : α → Bool) (members : List ι) (f : ι → α) : Nat := members.countP fun i => p (f i)

theorem tally_congr (h : ∀ i ∈ members, p (f i) = p (g i)) :
    tally p members f = tally p members g := by
  apply List.countP_congr
  intro i hi
  rw [h i hi]

theorem tally_eq_zero_iff : tally p members f = 0 ↔ ∀ i ∈ members, p (f i) = false := by
  rw [tally, List.countP_eq_zero]
  constructor
  · exact fun h i hi => Bool.not_eq_true _ ▸ h i hi
  · exact fun h i hi => Bool.not_eq_true _ ▸ h i hi

section Update

variable [DecidableEq ι]

theorem tally_update_of_not_mem {i : ι} (h : i ∉ members) (a : α) :
    tally p members (Function.update f i a) = tally p members f := by
  apply tally_congr
  intro j hj
  have hne : j ≠ i := fun heq => h (heq ▸ hj)
  rw [Function.update_of_ne hne]

/-- The member leaves with its old value and comes back with the new one. -/
theorem tally_update (hnodup : members.Nodup) {i : ι} (h : i ∈ members) (a : α) :
    tally p members (Function.update f i a) + (p (f i)).toNat =
      tally p members f + (p a).toNat := by
  induction members with
  | nil => cases h
  | cons j members ih =>
    obtain ⟨hj, hnodup⟩ := List.nodup_cons.mp hnodup
    have hcons (f : ι → α) : tally p (j :: members) f = tally p members f + (p (f j)).toNat := by
      rw [tally, List.countP_cons, tally]
      cases p (f j) <;> rfl
    rw [hcons, hcons]
    rcases List.mem_cons.mp h with rfl | h
    · rw [Function.update_self, tally_update_of_not_mem hj]
      omega
    · have hne : j ≠ i := fun heq => hj (heq ▸ h)
      have hrest := ih hnodup h
      rw [Function.update_of_ne hne]
      omega

end Update

end Tally
