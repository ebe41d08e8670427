import Mathlib.Data.Set.Insert
import Mathlib.Data.List.Nodup

/-!
# The use of resources

A resource is acquired, used and released. In a disciplined sequence of events only what
is held is used or released, and only what is not held is acquired: nothing is released
twice, and nothing is used before it is acquired or after it is released.
-/

namespace Lease

set_option autoImplicit false

variable {ρ : Type*}

inductive Event (ρ : Type*) where
  | acquire (resource : ρ)
  | use (resource : ρ)
  | release (resource : ρ)

namespace Event

/-- What is held after an event. -/
def next (held : Set ρ) : Event ρ → Set ρ
  | acquire r => insert r held
  | use _ => held
  | release r => held \ {r}

def Allowed (held : Set ρ) : Event ρ → Prop
  | acquire r => r ∉ held
  | use r => r ∈ held
  | release r => r ∈ held

end Event

/-- What is held after a sequence of events. -/
def after (held : Set ρ) (events : List (Event ρ)) : Set ρ := events.foldl Event.next held

def Disciplined (held : Set ρ) : List (Event ρ) → Prop
  | [] => True
  | e :: events => e.Allowed held ∧ Disciplined (e.next held) events

variable {held : Set ρ}

theorem disciplined_append {es fs : List (Event ρ)} :
    Disciplined held (es ++ fs) ↔ Disciplined held es ∧ Disciplined (after held es) fs := by
  induction es generalizing held with
  | nil => exact iff_of_eq (true_and _).symm
  | cons e es ih =>
    rw [List.cons_append, Disciplined, Disciplined, ih, and_assoc]
    rfl

/-- Uses of what is held are allowed, and change nothing. -/
theorem disciplined_uses {es : List (Event ρ)} (h : ∀ e ∈ es, ∃ r ∈ held, e = .use r) :
    Disciplined held es ∧ after held es = held := by
  induction es with
  | nil => exact ⟨trivial, rfl⟩
  | cons e es ih =>
    obtain ⟨r, hr, rfl⟩ := h e List.mem_cons_self
    obtain ⟨hrest, hafter⟩ := ih fun e he => h e (List.mem_cons_of_mem _ he)
    exact ⟨⟨hr, hrest⟩, hafter⟩

/-- Different resources that are held may be released one after the other. -/
theorem disciplined_releases {rs : List ρ} (hnodup : rs.Nodup) (h : ∀ r ∈ rs, r ∈ held) :
    Disciplined held (rs.map .release) := by
  induction rs generalizing held with
  | nil => trivial
  | cons r rs ih =>
    rw [List.nodup_cons] at hnodup
    refine ⟨h r List.mem_cons_self, ih hnodup.2 fun s hs => ?_⟩
    refine ⟨h s (List.mem_cons_of_mem _ hs), ?_⟩
    rintro rfl
    exact hnodup.1 hs

/-- Every event is allowed where it stands. -/
theorem Disciplined.allowed {es fs : List (Event ρ)} {e : Event ρ}
    (h : Disciplined held (es ++ e :: fs)) : e.Allowed (after held es) :=
  (disciplined_append.mp h).2.1

end Lease
