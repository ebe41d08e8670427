import Mathlib.Data.List.Basic
import Mathlib.Data.List.Nodup
import Mathlib.Data.List.Perm.Basic

/-!
# Lists whose elements are found by a key

The first element with a key is looked up. When no two elements share a key, what is
found does not depend on the order, and a change of the element in its place is a change
of the one that is found.
-/

namespace Keyed

set_option autoImplicit false

variable {κ α : Type*}

theorem perm_cons_eraseP {p : α → Bool} {xs : List α} {x : α} (h : xs.find? p = some x) :
    xs.Perm (x :: xs.eraseP p) := by
  induction xs with
  | nil => cases h
  | cons y ys ih =>
    by_cases hy : p y = true
    · rw [List.find?_cons_of_pos hy] at h
      cases h
      rw [List.eraseP_cons_of_pos hy]
    · rw [List.find?_cons_of_neg hy] at h
      rw [List.eraseP_cons_of_neg hy]
      exact ((ih h).cons y).trans (List.Perm.swap x y _)

variable [DecidableEq κ] {key : α → κ}

/-- The first element with the key. -/
def lookup (key : α → κ) (k : κ) (xs : List α) : Option α := xs.find? fun x => key x = k

/-- The change `f` of what has the key `k`. -/
def onKey (key : α → κ) (k : κ) (f : α → α) (x : α) : α := if key x = k then f x else x

theorem lookup_cons_self (x : α) (xs : List α) : lookup key (key x) (x :: xs) = some x := by
  simp [lookup]

theorem lookup_cons_of_ne {k : κ} {x : α} (h : key x ≠ k) (xs : List α) :
    lookup key k (x :: xs) = lookup key k xs := by
  simp [lookup, h]

theorem lookup_append (k : κ) (xs ys : List α) :
    lookup key k (xs ++ ys) = (lookup key k xs).or (lookup key k ys) := List.find?_append

theorem lookup_eq_none_iff {k : κ} {xs : List α} :
    lookup key k xs = none ↔ k ∉ xs.map key := by
  simp [lookup]

theorem mem_of_lookup {k : κ} {xs : List α} {x : α} (h : lookup key k xs = some x) :
    x ∈ xs ∧ key x = k := by
  refine ⟨List.mem_of_find?_eq_some h, ?_⟩
  simpa using List.find?_some h

/-- Among distinct keys an element is found by its own. -/
theorem lookup_of_mem {xs : List α} {x : α} (hdistinct : (xs.map key).Nodup) (hx : x ∈ xs) :
    lookup key (key x) xs = some x := by
  induction xs with
  | nil => cases hx
  | cons y ys ih =>
    rw [List.map_cons, List.nodup_cons] at hdistinct
    rcases List.mem_cons.mp hx with rfl | hx
    · exact lookup_cons_self x ys
    · have hne : key y ≠ key x := by
        intro heq
        exact hdistinct.1 (heq ▸ List.mem_map_of_mem hx)
      rw [lookup_cons_of_ne hne]
      exact ih hdistinct.2 hx

/-- What is found does not depend on the order. -/
theorem lookup_perm {xs ys : List α} (hperm : xs.Perm ys) (hdistinct : (xs.map key).Nodup)
    (k : κ) : lookup key k xs = lookup key k ys := by
  have hdistinct' : (ys.map key).Nodup := (hperm.map key).nodup_iff.mp hdistinct
  cases hfound : lookup key k xs with
  | none =>
    have hnot := lookup_eq_none_iff.mp hfound
    rw [(hperm.map key).mem_iff] at hnot
    exact (lookup_eq_none_iff.mpr hnot).symm
  | some x =>
    obtain ⟨hx, rfl⟩ := mem_of_lookup hfound
    exact (lookup_of_mem hdistinct' (hperm.mem_iff.mp hx)).symm

/-- What is dropped is no longer found. -/
theorem lookup_of_append {dropped kept : List α}
    (hdistinct : ((dropped ++ kept).map key).Nodup) (k : κ) :
    lookup key k kept = if k ∈ dropped.map key then none else lookup key k (dropped ++ kept) := by
  rw [List.map_append, List.nodup_append] at hdistinct
  split
  · rename_i hk
    apply lookup_eq_none_iff.mpr
    intro hkept
    exact hdistinct.2.2 k hk k hkept rfl
  · rename_i hk
    rw [lookup_append, lookup_eq_none_iff.mpr hk, Option.none_or]

section Change

variable {k : κ} {f : α → α} {xs : List α}

theorem map_onKey_of_not_mem (h : k ∉ xs.map key) : xs.map (onKey key k f) = xs := by
  have hsame : ∀ x ∈ xs, onKey key k f x = x := by
    intro x hx
    apply if_neg
    rintro rfl
    exact h (List.mem_map_of_mem hx)
  rw [List.map_congr_left hsame, List.map_id']

/-- Among distinct keys the change of the first element with the key is the change of
all of them. -/
theorem modify_eq_map {i : Nat} (hdistinct : (xs.map key).Nodup)
    (h : xs.findIdx? (fun x => key x = k) = some i) : xs.modify i f = xs.map (onKey key k f) := by
  induction xs generalizing i with
  | nil => cases h
  | cons x xs ih =>
    rw [List.map_cons, List.nodup_cons] at hdistinct
    rw [List.findIdx?_cons] at h
    by_cases hx : key x = k
    · rw [if_pos (decide_eq_true hx)] at h
      cases h
      rw [List.modify_zero_cons, List.map_cons, map_onKey_of_not_mem (hx ▸ hdistinct.1), onKey,
        if_pos hx]
    · rw [if_neg (by simpa using hx)] at h
      obtain ⟨j, hj, rfl⟩ := Option.map_eq_some_iff.mp h
      rw [List.modify_succ_cons, ih hdistinct.2 hj, List.map_cons, onKey, if_neg hx]

variable (hkey : ∀ x, key (f x) = key x)
include hkey

theorem key_onKey (x : α) : key (onKey key k f x) = key x := by
  unfold onKey
  split
  · exact hkey x
  · rfl

theorem map_key_onKey : (xs.map (onKey key k f)).map key = xs.map key := by
  rw [List.map_map]
  exact List.map_congr_left fun x _ => key_onKey hkey x

/-- A change of the elements with the key is seen when they are looked up. -/
theorem lookup_onKey (k' : κ) :
    lookup key k' (xs.map (onKey key k f)) =
      if k' = k then (lookup key k' xs).map f else lookup key k' xs := by
  induction xs with
  | nil => simp [lookup]
  | cons x xs ih =>
    rw [List.map_cons]
    by_cases hx : key x = k'
    · subst hx
      have hfound := @lookup_cons_self κ α _ key (onKey key k f x) (xs.map (onKey key k f))
      rw [key_onKey hkey] at hfound
      rw [hfound, lookup_cons_self]
      by_cases heq : key x = k
      · rw [if_pos heq, onKey, if_pos heq]
        rfl
      · rw [if_neg heq, onKey, if_neg heq]
    · rw [lookup_cons_of_ne (by rwa [key_onKey hkey]), ih, lookup_cons_of_ne hx]

end Change

end Keyed
