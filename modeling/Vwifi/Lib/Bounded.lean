import Mathlib.Data.List.Basic

/-!
# Lists of bounded length, oldest element first

`push` adds an element behind the others and drops the oldest one when the list
is full.
-/

namespace Bounded

set_option autoImplicit false

variable {α : Type*}

def push (capacity : Nat) (l : List α) (x : α) : List α :=
  (if capacity ≤ l.length then l.tail else l) ++ [x]

theorem push_length_le {capacity : Nat} {l : List α} (x : α) (hpos : 1 ≤ capacity)
    (h : l.length ≤ capacity) : (push capacity l x).length ≤ capacity := by
  unfold push
  split
  · rw [List.length_append, List.length_tail, List.length_singleton]
    omega
  · rw [List.length_append, List.length_singleton]
    omega

theorem push_eq_append (capacity : Nat) (l : List α) (x : α) :
    ∃ dropped kept, l = dropped ++ kept ∧ push capacity l x = kept ++ [x] := by
  unfold push
  split
  · exact ⟨l.take 1, l.tail, by rw [← List.drop_one, List.take_append_drop], rfl⟩
  · exact ⟨[], l, rfl, rfl⟩

/-- The successive pushes of several elements. -/
def pushAll (capacity : Nat) (l xs : List α) : List α := xs.foldl (push capacity) l

theorem pushAll_length_le {capacity : Nat} {l : List α} (xs : List α) (hpos : 1 ≤ capacity)
    (h : l.length ≤ capacity) : (pushAll capacity l xs).length ≤ capacity := by
  induction xs generalizing l with
  | nil => exact h
  | cons x xs ih => exact ih (push_length_le x hpos h)

theorem push_split {capacity : Nat} {l : List α} (x : α) (hpos : 1 ≤ capacity)
    (h : l.length ≤ capacity) : ∃ dropped, l ++ [x] = dropped ++ push capacity l x ∧
      (dropped ≠ [] → (push capacity l x).length = capacity) := by
  unfold push
  split
  · refine ⟨l.take 1, ?_, fun _ => ?_⟩
    · rw [← List.append_assoc, ← List.drop_one, List.take_append_drop]
    · rw [List.length_append, List.length_tail, List.length_singleton]
      omega
  · exact ⟨[], rfl, fun h => absurd rfl h⟩

/-- The oldest elements are dropped, and none as long as there is room. -/
theorem pushAll_split {capacity : Nat} {l : List α} (xs : List α) (hpos : 1 ≤ capacity)
    (h : l.length ≤ capacity) : ∃ dropped, l ++ xs = dropped ++ pushAll capacity l xs ∧
      (dropped ≠ [] → (pushAll capacity l xs).length = capacity) := by
  induction xs generalizing l with
  | nil => exact ⟨[], List.append_nil l, fun h => absurd rfl h⟩
  | cons x xs ih =>
    have hpush := push_length_le x hpos h
    obtain ⟨first, hfirst, hfull⟩ := push_split x hpos h
    obtain ⟨rest, hrest, hfull'⟩ := ih hpush
    refine ⟨first ++ rest, ?_, fun hne => ?_⟩
    · have hcons : l ++ x :: xs = l ++ [x] ++ xs := by simp
      rw [hcons, hfirst, List.append_assoc, hrest, List.append_assoc]
      rfl
    · have hle := pushAll_length_le xs hpos hpush
      by_cases hrest' : rest = []
      · have hfirst' : first ≠ [] := by
          intro hnil
          exact hne (by rw [hnil, hrest']; rfl)
        have hlen := hfull hfirst'
        rw [hrest', List.nil_append] at hrest
        have hcount := congrArg List.length hrest
        rw [List.length_append] at hcount
        change (pushAll capacity (push capacity l x) xs).length = capacity
        omega
      · exact hfull' hrest'

/-- The newest `n` elements. -/
def latest (n : Nat) (l : List α) : List α := l.drop (l.length - n)

theorem latest_append {n : Nat} {dropped l : List α} (h : l.length = n) :
    latest n (dropped ++ l) = l := by
  rw [latest, List.length_append, h, Nat.add_sub_cancel]
  exact List.drop_left

/-- What is left of several pushes are the newest elements, as many as there is room for. -/
theorem pushAll_eq_latest {capacity : Nat} {l : List α} (xs : List α) (hpos : 1 ≤ capacity)
    (h : l.length ≤ capacity) :
    pushAll capacity l xs = latest (min capacity (l.length + xs.length)) (l ++ xs) := by
  obtain ⟨dropped, hsplit, hfull⟩ := pushAll_split xs hpos h
  have hle := pushAll_length_le xs hpos h
  have hcount := congrArg List.length hsplit
  rw [List.length_append, List.length_append] at hcount
  rw [hsplit]
  apply Eq.symm
  apply latest_append
  by_cases hnil : dropped = []
  · rw [hnil, List.length_nil] at hcount
    omega
  · have hlen := hfull hnil
    omega

/-- What the pushes of `xs` drop. -/
def dropped (capacity : Nat) (l xs : List α) : List α :=
  (l ++ xs).take (l.length + xs.length - capacity)

theorem dropped_append {capacity : Nat} {l : List α} (xs : List α) (hpos : 1 ≤ capacity)
    (h : l.length ≤ capacity) : dropped capacity l xs ++ pushAll capacity l xs = l ++ xs := by
  have hcount : (l ++ xs).length - min capacity (l.length + xs.length) =
      l.length + xs.length - capacity := by
    rw [List.length_append]
    omega
  rw [pushAll_eq_latest xs hpos h, latest, dropped, hcount, List.take_append_drop]

theorem pushAll_sublist {capacity : Nat} {l : List α} (xs : List α) (hpos : 1 ≤ capacity)
    (h : l.length ≤ capacity) : (pushAll capacity l xs).Sublist (l ++ xs) := by
  obtain ⟨dropped, hsplit, _⟩ := pushAll_split xs hpos h
  rw [hsplit]
  exact List.sublist_append_right _ _

theorem push_subset (capacity : Nat) (l : List α) (x : α) : push capacity l x ⊆ l ++ [x] := by
  obtain ⟨dropped, kept, hsplit, hpush⟩ := push_eq_append capacity l x
  rw [hpush, hsplit, List.append_assoc]
  exact List.subset_append_right dropped _

/-- Nothing is in the list that was not there or pushed. -/
theorem pushAll_subset (capacity : Nat) (l xs : List α) : pushAll capacity l xs ⊆ l ++ xs := by
  induction xs generalizing l with
  | nil => simp [pushAll]
  | cons x xs ih =>
    intro y hy
    rcases List.mem_append.mp (ih (push capacity l x) hy) with hy | hy
    · have hpushed := push_subset capacity l x hy
      simp only [List.mem_append, List.mem_cons, List.not_mem_nil, or_false] at hpushed ⊢
      rcases hpushed with hold | hnew
      · exact Or.inl hold
      · exact Or.inr (Or.inl hnew)
    · exact List.mem_append_right l (List.mem_cons_of_mem x hy)

/-- An element is dropped only when the list is full of others. -/
theorem mem_pushAll_or_full {capacity : Nat} {l : List α} (xs : List α) (hpos : 1 ≤ capacity)
    (h : l.length ≤ capacity) {y : α} (hy : y ∈ l) :
    y ∈ pushAll capacity l xs ∨ (pushAll capacity l xs).length = capacity := by
  obtain ⟨dropped, hsplit, hfull⟩ := pushAll_split xs hpos h
  rcases List.mem_append.mp (hsplit ▸ List.mem_append_left xs hy) with hmem | hmem
  · exact Or.inr (hfull (List.ne_nil_of_mem hmem))
  · exact Or.inl hmem

end Bounded
