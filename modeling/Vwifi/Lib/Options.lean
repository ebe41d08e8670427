import Mathlib.Data.List.Basic

/-!
# Walking through the arguments of a program

The argument at the index is taken alone or together with the one behind it, or
it ends the walk. A list of arguments whose items are all known, each whatever
stands behind it, is taken item by item.
-/

namespace Options

set_option autoImplicit false

variable {α σ ε : Type*}

inductive Taken (σ ε : Type*) where
  | alone (s : σ)
  | withNext (s : σ)
  | stopped (e : ε)

def walk (take : σ → α → Option α → Taken σ ε) : σ → List α → Except ε σ
  | s, [] => .ok s
  | s, [a] =>
    match take s a none with
    | .alone s => .ok s
    | .withNext s => .ok s
    | .stopped e => .error e
  | s, a :: b :: rest =>
    match take s a (some b) with
    | .alone s => walk take s (b :: rest)
    | .withNext s => walk take s rest
    | .stopped e => .error e

/-- One argument or two, with what they do to the state. -/
structure Item (α σ : Type*) where
  first : α
  second : Option α
  apply : σ → σ

namespace Item

def words (i : Item α σ) : List α := i.first :: i.second.toList

/-- The program takes the item as a whole, whatever follows it. -/
def Known (take : σ → α → Option α → Taken σ ε) (i : Item α σ) : Prop :=
  match i.second with
  | none => ∀ s next, take s i.first next = .alone (i.apply s)
  | some b => ∀ s, take s i.first (some b) = .withNext (i.apply s)

end Item

theorem walk_item {take : σ → α → Option α → Taken σ ε} {i : Item α σ} (h : i.Known take) (s : σ)
    (rest : List α) : walk take s (i.words ++ rest) = walk take (i.apply s) rest := by
  obtain ⟨a, second, apply⟩ := i
  cases second with
  | none =>
    have halone : ∀ s next, take s a next = .alone (apply s) := h
    cases rest with
    | nil =>
      change walk take s [a] = walk take (apply s) []
      simp only [walk, halone]
    | cons b rest =>
      change walk take s (a :: b :: rest) = _
      rw [walk, halone]
  | some b =>
    have hpair : ∀ s, take s a (some b) = .withNext (apply s) := h
    change walk take s (a :: b :: rest) = _
    rw [walk, hpair]

/-- A list of known items is walked through to its end. -/
theorem walk_items {take : σ → α → Option α → Taken σ ε} {items : List (Item α σ)}
    (h : ∀ i ∈ items, i.Known take) (s : σ) :
    walk take s (items.flatMap Item.words) = .ok (items.foldl (fun s i => i.apply s) s) := by
  induction items generalizing s with
  | nil =>
    rw [List.flatMap_nil, walk]
    rfl
  | cons i items ih =>
    rw [List.flatMap_cons, walk_item (h i List.mem_cons_self), List.foldl_cons]
    exact ih (fun j hj => h j (List.mem_cons_of_mem i hj)) _

end Options
