import Mathlib.Data.List.Induction
import Vwifi.Lib.Lts

/-!
# A medium shared by parties

The history of a medium is one list: who joined it, and what was said to which
of the parties. What a single party says, and what it may hear, are read off
that list, so that all parties see one order. A party hears what is left of it
when all that must be missed and some of what may be missed is missed.
-/

namespace Broadcast

set_option autoImplicit false

variable {π ι ν μ : Type*}

/-- Who says something names the parties that may hear it, and how each of them
hears it. -/
inductive Event (π ι ν μ : Type*) where
  | joined (p : π) (i : ι)
  | said (p : π) (n : ν) (audience : List (π × μ))

/-- The things said, in order. -/
def spoken : List (Event π ι ν μ) → List ν
  | [] => []
  | .joined _ _ :: h => spoken h
  | .said _ n _ :: h => n :: spoken h

section Views

variable [DecidableEq π] (p : π)

def shares (n : ν) (audience : List (π × μ)) : List (ν × μ) :=
  audience.filterMap fun x => if x.1 = p then some (n, x.2) else none

def heardStep (heard : List (ν × μ)) : Event π ι ν μ → List (ν × μ)
  | .joined q _ => if q = p then [] else heard
  | .said _ n audience => heard ++ shares p n audience

/-- What `p` could hear since it joined. -/
def heardBy (h : List (Event π ι ν μ)) : List (ν × μ) := h.foldl (heardStep p) []

def saidStep (said : List ν) : Event π ι ν μ → List ν
  | .joined q _ => if q = p then [] else said
  | .said q n _ => if q = p then said ++ [n] else said

/-- What `p` said since it joined. -/
def saidBy (h : List (Event π ι ν μ)) : List ν := h.foldl (saidStep p) []

def othersStep (said : List ν) : Event π ι ν μ → List ν
  | .joined q _ => if q = p then [] else said
  | .said q n _ => if q = p then said else said ++ [n]

/-- What the others said since `p` joined. -/
def saidByOthers (h : List (Event π ι ν μ)) : List ν := h.foldl (othersStep p) []

def broughtStep (brought : Option ι) : Event π ι ν μ → Option ι
  | .joined q i => if q = p then some i else brought
  | .said _ _ _ => brought

/-- What `p` brought when it joined last. -/
def broughtBy (h : List (Event π ι ν μ)) : Option ι := h.foldl (broughtStep p) none

variable {p} {h : List (Event π ι ν μ)}

@[simp] theorem heardBy_joined (q : π) (i : ι) :
    heardBy p (h ++ [.joined q i]) = if q = p then [] else heardBy p h := by
  rw [heardBy, List.foldl_append]
  rfl

@[simp] theorem heardBy_said (q : π) (n : ν) (audience : List (π × μ)) :
    heardBy p (h ++ [.said q n audience]) = heardBy p h ++ shares p n audience := by
  rw [heardBy, List.foldl_append]
  rfl

@[simp] theorem saidBy_joined (q : π) (i : ι) :
    saidBy p (h ++ [.joined q i]) = if q = p then [] else saidBy p h := by
  rw [saidBy, List.foldl_append]
  rfl

@[simp] theorem saidBy_said (q : π) (n : ν) (audience : List (π × μ)) :
    saidBy p (h ++ [.said q n audience]) = if q = p then saidBy p h ++ [n] else saidBy p h := by
  rw [saidBy, List.foldl_append]
  rfl

@[simp] theorem saidByOthers_joined (q : π) (i : ι) :
    saidByOthers p (h ++ [.joined q i]) = if q = p then [] else saidByOthers p h := by
  rw [saidByOthers, List.foldl_append]
  rfl

@[simp] theorem saidByOthers_said (q : π) (n : ν) (audience : List (π × μ)) :
    saidByOthers p (h ++ [.said q n audience]) =
      if q = p then saidByOthers p h else saidByOthers p h ++ [n] := by
  rw [saidByOthers, List.foldl_append]
  rfl

@[simp] theorem broughtBy_joined (q : π) (i : ι) :
    broughtBy p (h ++ [.joined q i]) = if q = p then some i else broughtBy p h := by
  rw [broughtBy, List.foldl_append]
  rfl

@[simp] theorem broughtBy_said (q : π) (n : ν) (audience : List (π × μ)) :
    broughtBy p (h ++ [.said q n audience]) = broughtBy p h := by
  rw [broughtBy, List.foldl_append]
  rfl

theorem shares_append (n : ν) (xs ys : List (π × μ)) :
    shares p n (xs ++ ys) = shares p n xs ++ shares p n ys := List.filterMap_append

theorem shares_cons_self (n : ν) (m : μ) (xs : List (π × μ)) :
    shares p n ((p, m) :: xs) = (n, m) :: shares p n xs := by
  rw [shares, List.filterMap_cons, if_pos rfl]
  rfl

theorem shares_cons_of_ne {q : π} (hq : q ≠ p) (n : ν) (m : μ) (xs : List (π × μ)) :
    shares p n ((q, m) :: xs) = shares p n xs := by
  rw [shares, List.filterMap_cons, if_neg hq]
  rfl

theorem shares_eq_nil {n : ν} {xs : List (π × μ)} (h : ∀ x ∈ xs, x.1 ≠ p) : shares p n xs = [] := by
  apply List.filterMap_eq_nil_iff.mpr
  intro x hx
  rw [if_neg (h x hx)]

end Views

/-! ## What is left when some of it is missed -/

/-- `ns` is `ms` without the items that must be missed and some of those that may be. -/
inductive Thins (may must : μ → Prop) : List μ → List μ → Prop where
  | nil : Thins may must [] []
  | keep {m : μ} (hm : ¬ must m) {ms ns : List μ} (h : Thins may must ms ns) :
      Thins may must (m :: ms) (m :: ns)
  | miss {m : μ} (hm : may m) {ms ns : List μ} (h : Thins may must ms ns) :
      Thins may must (m :: ms) ns

namespace Thins

variable {may must : μ → Prop} {ms ns ms' ns' : List μ}

theorem append (h : Thins may must ms ns) (h' : Thins may must ms' ns') :
    Thins may must (ms ++ ms') (ns ++ ns') := by
  induction h with
  | nil => exact h'
  | keep hm _ ih => exact .keep hm ih
  | miss hm _ ih => exact .miss hm ih

theorem sublist (h : Thins may must ms ns) : ns.Sublist ms := by
  induction h with
  | nil => exact .slnil
  | keep _ _ ih => exact ih.cons_cons _
  | miss _ _ ih => exact ih.cons _

/-- Where nothing may be missed, nothing is. -/
theorem eq (h : Thins may must ms ns) (hnone : ∀ m ∈ ms, ¬ may m) : ns = ms := by
  induction h with
  | nil => rfl
  | keep _ _ ih => rw [ih fun m hm => hnone m (List.mem_cons_of_mem _ hm)]
  | miss hm _ _ => exact absurd hm (hnone _ List.mem_cons_self)

end Thins

/-! ## One order for all -/

/-- What is said is said to others, and to each of them once. -/
def Event.Proper [DecidableEq π] : Event π ι ν μ → Prop
  | .joined _ _ => True
  | .said p n audience =>
    (∀ x ∈ audience, x.1 ≠ p) ∧ ∀ q, (shares q n audience).length ≤ 1

theorem spoken_append (h h' : List (Event π ι ν μ)) : spoken (h ++ h') = spoken h ++ spoken h' := by
  induction h with
  | nil => rfl
  | cons e h ih =>
    cases e with
    | joined p i => exact ih
    | said p n audience => exact congrArg (n :: ·) ih

section Shares

variable [DecidableEq π] {p : π} {n : ν} {audience : List (π × μ)}

theorem fst_of_mem_shares {x : ν × μ} (hx : x ∈ shares p n audience) : x.1 = n := by
  obtain ⟨y, _, hy⟩ := List.mem_filterMap.mp hx
  split at hy
  · cases hy
    rfl
  · cases hy

theorem mem_shares {m : μ} : (n, m) ∈ shares p n audience ↔ (p, m) ∈ audience := by
  constructor
  · intro h
    obtain ⟨⟨q, m'⟩, hmem, heq⟩ := List.mem_filterMap.mp h
    split at heq
    · rename_i hq
      cases heq
      exact hq ▸ hmem
    · cases heq
  · intro h
    exact List.mem_filterMap.mpr ⟨(p, m), h, if_pos rfl⟩

theorem map_fst_shares (h : (shares p n audience).length ≤ 1) :
    ((shares p n audience).map Prod.fst).Sublist [n] := by
  have hall := fun x => @fst_of_mem_shares π ν μ _ p n audience x
  match hs : shares p n audience with
  | [] => exact List.nil_sublist _
  | [x] =>
    rw [hs] at hall
    have hsame : [x].map Prod.fst = [n] := by
      rw [List.map_singleton, hall x List.mem_cons_self]
    exact hsame ▸ List.Sublist.refl _
  | x :: y :: xs =>
    rw [hs] at h
    simp at h

/-- A party of the audience gets what is said. -/
theorem map_fst_shares_of_mem (h : (shares p n audience).length ≤ 1) {m : μ}
    (hm : (p, m) ∈ audience) : (shares p n audience).map Prod.fst = [n] := by
  apply (map_fst_shares h).eq_of_length_le
  rw [List.length_map, List.length_singleton]
  exact List.length_pos_of_mem (mem_shares.mpr hm)

end Shares

/-- What the others said is in the one order of the medium. -/
theorem saidByOthers_sublist [DecidableEq π] (p : π) (h : List (Event π ι ν μ)) :
    (saidByOthers p h).Sublist (spoken h) := by
  induction h using List.reverseRecOn with
  | nil => exact List.Sublist.slnil
  | append_singleton h e ih =>
    rw [spoken_append]
    cases e with
    | joined q i =>
      rw [saidByOthers_joined]
      split
      · exact List.nil_sublist _
      · exact ih.trans (List.sublist_append_left _ _)
    | said q n audience =>
      rw [saidByOthers_said]
      split
      · exact ih.trans (List.sublist_append_left _ _)
      · exact ih.append (List.Sublist.refl _)

end Broadcast
