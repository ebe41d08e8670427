import Mathlib.Data.List.Perm.Basic
import Vwifi.Select

/-!
# The three views of the watched descriptors

`CSelect` keeps its nodes as a vector, as a descriptor set and as a maximum.
They agree as long as no node is added twice.
-/

namespace Vwifi

set_option autoImplicit false

namespace CSelect

/-- The vector has no duplicate, and the set and the maximum are those of the
vector; the maximum of nothing is -1. -/
structure Coherent (s : CSelect) : Prop where
  nodup : s.listNodes.Nodup
  master : ∀ d, s.master d = true ↔ d ∈ s.listNodes
  maximum : s.maxDescriptor = s.listNodes.foldl updateMaxDescriptor (-1)

theorem init_coherent : init.Coherent where
  nodup := List.nodup_nil
  master := by simp [init]
  maximum := rfl

section Maximum

variable {m : Int} {d : TDescriptor} {nodes : List TDescriptor}

theorem le_updateMaxDescriptor (m : Int) (d : TDescriptor) : m ≤ updateMaxDescriptor m d := by
  unfold updateMaxDescriptor
  split <;> omega

theorem descriptor_le_updateMaxDescriptor (m : Int) (d : TDescriptor) :
    (d : Int) ≤ updateMaxDescriptor m d := by
  unfold updateMaxDescriptor
  split <;> omega

theorem le_foldl_updateMaxDescriptor (m : Int) (nodes : List TDescriptor) :
    m ≤ nodes.foldl updateMaxDescriptor m := by
  induction nodes generalizing m with
  | nil => exact Int.le_refl m
  | cons node nodes ih => exact Int.le_trans (le_updateMaxDescriptor m node) (ih _)

theorem descriptor_le_foldl (h : d ∈ nodes) : (d : Int) ≤ nodes.foldl updateMaxDescriptor m := by
  induction nodes generalizing m with
  | nil => cases h
  | cons node nodes ih =>
    rw [List.foldl_cons]
    rcases List.mem_cons.mp h with rfl | h
    · exact Int.le_trans (descriptor_le_updateMaxDescriptor m d)
        (le_foldl_updateMaxDescriptor _ nodes)
    · exact ih h

/-- The maximum is reached: it is a node, or what the search began with. -/
theorem foldl_updateMaxDescriptor_mem (m : Int) (nodes : List TDescriptor) :
    nodes.foldl updateMaxDescriptor m = m ∨
      ∃ d ∈ nodes, nodes.foldl updateMaxDescriptor m = d := by
  induction nodes generalizing m with
  | nil => exact Or.inl rfl
  | cons node nodes ih =>
    rw [List.foldl_cons]
    rcases ih (updateMaxDescriptor m node) with heq | ⟨d, hd, heq⟩
    · rw [heq]
      unfold updateMaxDescriptor
      split
      · exact Or.inr ⟨node, List.mem_cons_self, rfl⟩
      · exact Or.inl rfl
    · exact Or.inr ⟨d, List.mem_cons_of_mem node hd, heq⟩

end Maximum

variable {s : CSelect} {d : TDescriptor}

theorem Coherent.le_maximum (h : s.Coherent) (hd : d ∈ s.listNodes) :
    (d : Int) ≤ s.maxDescriptor := by
  rw [h.maximum]
  exact descriptor_le_foldl hd

theorem Coherent.maximum_mem (h : s.Coherent) (hne : s.listNodes ≠ []) :
    ∃ d ∈ s.listNodes, s.maxDescriptor = d := by
  rw [h.maximum]
  rcases foldl_updateMaxDescriptor_mem (-1) s.listNodes with heq | hmem
  · obtain ⟨d, hd⟩ := List.exists_mem_of_ne_nil _ hne
    have hle := @descriptor_le_foldl (-1) d _ hd
    omega
  · exact hmem

theorem addNode_coherent (h : s.Coherent) (hd : d ∉ s.listNodes) : (s.addNode d).Coherent where
  nodup := by
    exact (List.perm_append_singleton d s.listNodes).nodup_iff.mpr
      (List.nodup_cons.mpr ⟨hd, h.nodup⟩)
  master := by
    intro d'
    by_cases heq : d' = d
    · subst heq
      simp [addNode]
    · simp [addNode, heq, h.master]
  maximum := by
    simp only [addNode, List.foldl_append, List.foldl_cons, List.foldl_nil, h.maximum]

/-- What the search of `DelNode` leaves, and how far it takes the maximum. -/
theorem delNodeLoop_eq (d : TDescriptor) (nodes : List TDescriptor) (m : Int) :
    delNodeLoop d nodes m =
      (nodes.erase d, decide (d ∈ nodes), (nodes.erase d).foldl updateMaxDescriptor m) := by
  induction nodes generalizing m with
  | nil => rfl
  | cons node nodes ih =>
    rw [delNodeLoop]
    by_cases heq : node = d
    · subst heq
      simp
    · have hne : ¬ d = node := fun h => heq h.symm
      rw [if_neg heq, ih, List.erase_cons_tail (by simpa using heq)]
      simp [hne]

theorem delNode_listNodes (s : CSelect) (d : TDescriptor) :
    (s.delNode d).listNodes = s.listNodes.erase d := by
  simp only [delNode, delNodeLoop_eq]

theorem delNode_coherent (h : s.Coherent) (d : TDescriptor) : (s.delNode d).Coherent where
  nodup := by
    rw [delNode_listNodes]
    exact h.nodup.erase d
  master := by
    intro d'
    have hmem : d' ∈ s.listNodes.erase d ↔ d' ≠ d ∧ d' ∈ s.listNodes := h.nodup.mem_erase_iff
    simp only [delNode, delNodeLoop_eq, hmem]
    by_cases hd : d ∈ s.listNodes
    · by_cases heq : d' = d
      · subst heq
        simp [hd]
      · simp [hd, heq, h.master]
    · have hne : d' ∈ s.listNodes → d' ≠ d := fun hd' heq => hd (heq ▸ hd')
      simp only [decide_eq_true_eq, if_neg hd, h.master]
      exact ⟨fun hd' => ⟨hne hd', hd'⟩, And.right⟩
  maximum := by
    simp only [delNode, delNodeLoop_eq]

end CSelect

end Vwifi
