import Mathlib.Data.List.Basic

/-!
# Streams delivered in segments

A stream arrives as a list of segments. `deliver n` is one delivery of at most
`n` items: it never crosses the end of a segment, and it is empty exactly when
the next segment is empty or missing, which stands for a failed delivery.
`supply` is what a consumer that gives up at the first failure can ever see.
-/

namespace Segmented

set_option autoImplicit false

variable {α : Type*}

def deliver (n : Nat) : List (List α) → List α × List (List α)
  | [] => ([], [])
  | segment :: rest =>
    (segment.take n, if segment.length ≤ n then rest else segment.drop n :: rest)

/-- The items that arrive before the first empty segment. -/
def supply : List (List α) → List α
  | [] => []
  | [] :: _ => []
  | (a :: segment) :: rest => a :: segment ++ supply rest

@[simp] theorem supply_nil : supply ([] : List (List α)) = [] := rfl

@[simp] theorem supply_nil_cons (rest : List (List α)) : supply ([] :: rest) = [] := rfl

theorem supply_cons {segment : List α} (h : segment ≠ []) (rest : List (List α)) :
    supply (segment :: rest) = segment ++ supply rest := by
  cases segment with
  | nil => exact absurd rfl h
  | cons a segment => rfl

/-- Without an empty segment nothing is lost. -/
theorem supply_eq_flatten {segments : List (List α)} (h : ∀ c ∈ segments, c ≠ []) :
    supply segments = segments.flatten := by
  induction segments with
  | nil => rfl
  | cons c rest ih =>
    rw [supply_cons (h c List.mem_cons_self), List.flatten_cons,
      ih fun c hc => h c (List.mem_cons_of_mem _ hc)]

theorem deliver_length_le (n : Nat) (segments : List (List α)) :
    (deliver n segments).1.length ≤ n := by
  cases segments with
  | nil => exact Nat.zero_le n
  | cons c rest => exact List.length_take_le n c

theorem deliver_eq_nil_iff {n : Nat} (hn : 0 < n) (segments : List (List α)) :
    (deliver n segments).1 = [] ↔ supply segments = [] := by
  cases segments with
  | nil => simp [deliver]
  | cons c rest =>
    cases c with
    | nil => simp [deliver]
    | cons a c =>
      have hne : n ≠ 0 := by omega
      simp [deliver, supply, hne]

/-- A successful delivery is a prefix of the supply and leaves the rest of it. -/
theorem supply_deliver {n : Nat} {segments : List (List α)}
    (h : (deliver n segments).1 ≠ []) :
    supply segments = (deliver n segments).1 ++ supply (deliver n segments).2 := by
  cases segments with
  | nil => exact absurd rfl h
  | cons c rest =>
    have hc : c ≠ [] := by
      rintro rfl
      exact h (by simp [deliver])
    simp only [deliver]
    split
    · rename_i hle
      rw [supply_cons hc, List.take_of_length_le hle]
    · rename_i hlt
      have hdrop : c.drop n ≠ [] := by
        rw [ne_eq, List.drop_eq_nil_iff]
        omega
      rw [supply_cons hc, supply_cons hdrop, ← List.append_assoc, List.take_append_drop]

theorem deliver_ne_nil_of_mem {n : Nat} {segments : List (List α)}
    (h : ∀ c ∈ segments, c ≠ []) : ∀ c ∈ (deliver n segments).2, c ≠ [] := by
  cases segments with
  | nil => exact fun c hc => absurd hc List.not_mem_nil
  | cons s rest =>
    intro c hc
    simp only [deliver] at hc
    split at hc
    · exact h c (List.mem_cons_of_mem s hc)
    · rename_i hlt
      rcases List.mem_cons.mp hc with rfl | hm
      · rw [ne_eq, List.drop_eq_nil_iff]
        omega
      · exact h c (List.mem_cons_of_mem s hm)

/-- Nothing is lost between a delivery and what it leaves. -/
theorem deliver_flatten (n : Nat) (segments : List (List α)) :
    (deliver n segments).1 ++ (deliver n segments).2.flatten = segments.flatten := by
  cases segments with
  | nil => rfl
  | cons c rest =>
    simp only [deliver]
    split
    · rename_i hle
      rw [List.take_of_length_le hle, List.flatten_cons]
    · rw [List.flatten_cons, List.flatten_cons, ← List.append_assoc, List.take_append_drop]

/-- The fields arrive one by one: no segment ends within a field. -/
def ArriveWhole : List (List α) → List (List α) → Prop
  | [], segments => segments = []
  | field :: fields, segments =>
    (deliver field.length segments).1 = field ∧
      ArriveWhole fields (deliver field.length segments).2

instance decidableArriveWhole [DecidableEq α] :
    (fields segments : List (List α)) → Decidable (ArriveWhole fields segments)
  | [], segments => inferInstanceAs (Decidable (segments = []))
  | field :: fields, segments =>
    have := decidableArriveWhole fields (deliver field.length segments).2
    inferInstanceAs (Decidable ((deliver field.length segments).1 = field ∧ _))

/-- A consumer that stops at the first failure sees all the fields. -/
theorem supply_of_arriveWhole {fields segments : List (List α)} (hne : ∀ field ∈ fields, field ≠ [])
    (h : ArriveWhole fields segments) : supply segments = fields.flatten := by
  induction fields generalizing segments with
  | nil =>
    rw [show segments = [] from h]
    rfl
  | cons field fields ih =>
    obtain ⟨hfield, hrest⟩ := h
    have hdelivered : (deliver field.length segments).1 ≠ [] := by
      rw [hfield]
      exact hne field List.mem_cons_self
    rw [supply_deliver hdelivered, hfield, List.flatten_cons,
      ih (fun field' hmem => hne field' (List.mem_cons_of_mem field hmem)) hrest]

/-- To ask for more than the last field brings just this field. -/
theorem deliver_last {field : List α} {segments : List (List α)} {n : Nat} (hn : field.length ≤ n)
    (h : ArriveWhole [field] segments) : (deliver n segments).1 = field := by
  obtain ⟨hfield, hrest⟩ := h
  cases segments with
  | nil => exact hfield
  | cons c rest =>
    have hempty : (deliver field.length (c :: rest)).2 = [] := hrest
    simp only [deliver] at hfield hempty ⊢
    split at hempty
    · rename_i hle
      rw [List.take_of_length_le hle] at hfield
      rw [hfield, List.take_of_length_le hn]
    · cases hempty

/-- A stream in one segment: every delivery brings what is asked for, as long as
there is so much. -/
def atOnce : List α → List (List α)
  | [] => []
  | a :: items => [a :: items]

theorem deliver_atOnce {items : List α} (h : items ≠ []) (rest : List α) :
    deliver items.length (atOnce (items ++ rest)) = (items, atOnce rest) := by
  cases items with
  | nil => exact absurd rfl h
  | cons a items =>
    cases rest with
    | nil => simp [atOnce, deliver]
    | cons b rest => simp [atOnce, deliver]

end Segmented
