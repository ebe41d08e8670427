import Mathlib.Data.List.Pairwise
import Mathlib.Order.Lattice

/-!
# Finite maps in the order of their keys

A map is the list of its entries with strictly increasing keys. Lookup after an
insertion and after a removal is all that most users need; the order matters to
those who go through the values.
-/

set_option autoImplicit false

structure SortedMap (κ : Type*) (α : Type*) [LinearOrder κ] where
  entries : List (κ × α)
  sorted : entries.Pairwise fun a b => a.1 < b.1

namespace SortedMap

variable {κ : Type*} {α : Type*} [LinearOrder κ]

def empty : SortedMap κ α := ⟨[], List.Pairwise.nil⟩

def find? (m : SortedMap κ α) (k : κ) : Option α := (m.entries.find? (·.1 = k)).map Prod.snd

/-- The values in the order of their keys. -/
def values (m : SortedMap κ α) : List α := m.entries.map Prod.snd

def insertEntry (k : κ) (v : α) : List (κ × α) → List (κ × α)
  | [] => [(k, v)]
  | e :: rest =>
    if k < e.1 then (k, v) :: e :: rest
    else if k = e.1 then (k, v) :: rest
    else e :: insertEntry k v rest

theorem mem_insertEntry {k : κ} {v : α} {es : List (κ × α)} {e : κ × α}
    (h : e ∈ insertEntry k v es) : e = (k, v) ∨ e ∈ es := by
  induction es with
  | nil => exact Or.inl (List.mem_singleton.mp h)
  | cons a es ih =>
    rw [insertEntry] at h
    split at h
    · exact List.mem_cons.mp h
    · split at h
      · rcases List.mem_cons.mp h with h | h
        · exact Or.inl h
        · exact Or.inr (List.mem_cons_of_mem a h)
      · rcases List.mem_cons.mp h with h | h
        · exact Or.inr (h ▸ List.mem_cons_self)
        · exact (ih h).imp_right (List.mem_cons_of_mem a)

theorem insertEntry_sorted (k : κ) (v : α) {es : List (κ × α)}
    (h : es.Pairwise fun a b => a.1 < b.1) :
    (insertEntry k v es).Pairwise fun a b => a.1 < b.1 := by
  induction es with
  | nil => exact List.pairwise_singleton _ _
  | cons a es ih =>
    obtain ⟨hhead, htail⟩ := List.pairwise_cons.mp h
    rw [insertEntry]
    split
    · rename_i hlt
      refine List.pairwise_cons.mpr ⟨fun b hb => ?_, h⟩
      rcases List.mem_cons.mp hb with rfl | hb
      · exact hlt
      · exact lt_trans hlt (hhead b hb)
    · rename_i hnlt
      split
      · rename_i heq
        exact List.pairwise_cons.mpr ⟨fun b hb => heq ▸ hhead b hb, htail⟩
      · rename_i hne
        refine List.pairwise_cons.mpr ⟨fun b hb => ?_, ih htail⟩
        rcases mem_insertEntry hb with rfl | hb
        · exact lt_of_le_of_ne (not_lt.mp hnlt) (Ne.symm hne)
        · exact hhead b hb

/-- `m[k] = v` -/
def insert (m : SortedMap κ α) (k : κ) (v : α) : SortedMap κ α :=
  ⟨insertEntry k v m.entries, insertEntry_sorted k v m.sorted⟩

def erase (m : SortedMap κ α) (k : κ) : SortedMap κ α :=
  ⟨m.entries.filter (·.1 ≠ k), m.sorted.filter _⟩

theorem find?_insertEntry_self (k : κ) (v : α) (es : List (κ × α)) :
    (insertEntry k v es).find? (·.1 = k) = some (k, v) := by
  induction es with
  | nil => simp [insertEntry]
  | cons a es ih =>
    rw [insertEntry]
    split
    · simp
    · split
      · simp
      · rename_i hne
        rw [List.find?_cons_of_neg (by simpa using Ne.symm hne), ih]

theorem find?_insertEntry_of_ne {k k' : κ} (h : k' ≠ k) (v : α) (es : List (κ × α)) :
    (insertEntry k v es).find? (·.1 = k') = es.find? (·.1 = k') := by
  have hnew : ∀ rest : List (κ × α),
      ((k, v) :: rest).find? (·.1 = k') = rest.find? (·.1 = k') := fun rest =>
    List.find?_cons_of_neg (by simpa using Ne.symm h)
  induction es with
  | nil => exact hnew []
  | cons a es ih =>
    rw [insertEntry]
    split
    · exact hnew _
    · split
      · rename_i heq
        rw [hnew, List.find?_cons_of_neg (by simpa [← heq] using Ne.symm h)]
      · rw [List.find?_cons, List.find?_cons, ih]

@[simp] theorem find?_insert_self (m : SortedMap κ α) (k : κ) (v : α) :
    (m.insert k v).find? k = some v := by
  rw [find?, insert, find?_insertEntry_self]
  rfl

theorem find?_insert_of_ne (m : SortedMap κ α) {k k' : κ} (h : k' ≠ k) (v : α) :
    (m.insert k v).find? k' = m.find? k' := by
  rw [find?, insert, find?_insertEntry_of_ne h]
  rfl

@[simp] theorem find?_erase_self (m : SortedMap κ α) (k : κ) : (m.erase k).find? k = none := by
  have hnone : (m.entries.filter (·.1 ≠ k)).find? (·.1 = k) = none := by
    apply List.find?_eq_none.mpr
    intro e he
    simpa using (List.mem_filter.mp he).2
  rw [find?, erase, hnone]
  rfl

theorem find?_erase_of_ne (m : SortedMap κ α) {k k' : κ} (h : k' ≠ k) :
    (m.erase k).find? k' = m.find? k' := by
  have hsame : (m.entries.filter (·.1 ≠ k)).find? (·.1 = k') = m.entries.find? (·.1 = k') := by
    rw [List.find?_filter]
    congr 1
    funext e
    by_cases he : e.1 = k'
    · simp [he, h]
    · simp [he]
  rw [find?, erase, hsame]
  rfl

end SortedMap
