import Mathlib.Data.List.Basic

/-!
# Changing the first element that is found

A search by a property that the change keeps finds the same place before and after it.
-/

namespace First

set_option autoImplicit false

universe u

variable {α : Type u} {p : α → Bool} {f : α → α}

theorem findIdx?_modify (hf : ∀ a, p (f a) = p a) (l : List α) (i : Nat) :
    (l.modify i f).findIdx? p = l.findIdx? p := by
  induction l generalizing i with
  | nil => simp
  | cons a l ih =>
    cases i with
    | zero => rw [List.modify_zero_cons, List.findIdx?_cons, List.findIdx?_cons, hf]
    | succ i => rw [List.modify_succ_cons, List.findIdx?_cons, List.findIdx?_cons, ih]

/-- What is found after the change is what was found before it, changed. -/
theorem find?_modify (hf : ∀ a, p (f a) = p a) {l : List α} {i : Nat}
    (h : l.findIdx? p = some i) : (l.modify i f).find? p = (l.find? p).map f := by
  have hfind := findIdx?_modify hf l i
  rw [List.find?_eq_bind_findIdx?_getElem?, List.find?_eq_bind_findIdx?_getElem?, hfind, h,
    Option.bind_some, Option.bind_some, List.getElem?_modify_eq]
  rfl

theorem modify_append_cons (before : List α) (a : α) (after : List α) :
    (before ++ a :: after).modify before.length f = before ++ f a :: after := by
  induction before with
  | nil => rfl
  | cons b before ih => rw [List.cons_append, List.length_cons, List.modify_succ_cons, ih]; rfl

/-- A change of the element that is found is none only when it keeps that element. -/
theorem modify_eq_self_iff {l : List α} {i : Nat} (h : l.findIdx? p = some i) :
    l.modify i f = l ↔ ∀ a, l.find? p = some a → f a = a := by
  rw [List.find?_eq_bind_findIdx?_getElem?, h, Option.bind_some]
  constructor
  · intro hself a ha
    have hget := List.getElem?_modify_eq f i l
    rw [hself, ha] at hget
    exact (Option.some.inj hget).symm
  · intro hfixed
    apply List.ext_getElem?
    intro j
    by_cases hj : i = j
    · subst hj
      rw [List.getElem?_modify_eq]
      cases ha : l[i]? with
      | none => rfl
      | some a => exact congrArg some (hfixed a ha)
    · rw [List.getElem?_modify_ne _ _ hj]

/-- After the change there is what was there before, and the changed element. -/
theorem mem_modify_findIdx? {l : List α} {i : Nat} {x : α} (h : l.findIdx? p = some i)
    (hx : x ∈ l.modify i f) : x ∈ l ∨ ∃ a ∈ l, p a = true ∧ x = f a := by
  obtain ⟨hi, hp, _⟩ := List.findIdx?_eq_some_iff_getElem.mp h
  obtain ⟨j, hj, rfl⟩ := List.mem_iff_getElem.mp hx
  rw [List.length_modify] at hj
  rw [List.getElem_modify]
  split
  · rename_i heq
    subst heq
    exact Or.inr ⟨l[i], List.getElem_mem hi, hp, rfl⟩
  · exact Or.inl (List.getElem_mem hj)

theorem findIdx?_append_singleton {l : List α} {a : α} (hl : ∀ b ∈ l, p b = false)
    (ha : p a = true) : (l ++ [a]).findIdx? p = some l.length := by
  rw [List.findIdx?_append, List.findIdx?_eq_none_iff.mpr hl, List.findIdx?_singleton, if_pos ha]
  simp

end First
