import Mathlib.Logic.Relation

/-!
# Deterministic labelled transition systems

A system is a partial step function: `step s a` is missing when the label `a`
cannot happen in `s`. A run is a list of labels. Properties of a run come in two
kinds, of the states it goes through and of the steps it takes, and the rules
below prove the first from the second.
-/

namespace Lts

set_option autoImplicit false

variable {σ : Type*} {α : Type*}

def run (step : σ → α → Option σ) : σ → List α → Option σ
  | s, [] => some s
  | s, a :: as =>
    match step s a with
    | none => none
    | some s' => run step s' as

/-- Every state the run goes through, the first and the last included. -/
def States (step : σ → α → Option σ) (P : σ → Prop) : σ → List α → Prop
  | s, [] => P s
  | s, a :: as => P s ∧ ∀ s', step s a = some s' → States step P s' as

/-- Every step the run takes, as a property of the state before it and the label. -/
def Steps (step : σ → α → Option σ) (Q : σ → α → Prop) : σ → List α → Prop
  | _, [] => True
  | s, a :: as => ∀ s', step s a = some s' → Q s a ∧ Steps step Q s' as

variable {step : σ → α → Option σ} {P I J : σ → Prop} {Q R : σ → α → Prop}

theorem run_cons {s s' : σ} {a : α} {as : List α} (h : step s a = some s') :
    run step s (a :: as) = run step s' as := by
  simp only [run, h]

theorem States.head {s : σ} {as : List α} (h : States step P s as) : P s := by
  cases as with
  | nil => exact h
  | cons a as => exact h.1

theorem States.last {s s' : σ} {as : List α} (h : States step P s as)
    (hrun : run step s as = some s') : P s' := by
  induction as generalizing s with
  | nil =>
    cases hrun
    exact h
  | cons a as ih =>
    cases hs : step s a with
    | none => simp [run, hs] at hrun
    | some t => exact ih (h.2 t hs) (by rwa [run_cons hs] at hrun)

theorem States.mono {s : σ} {as : List α} (himp : ∀ t, I t → J t) (h : States step I s as) :
    States step J s as := by
  induction as generalizing s with
  | nil => exact himp s h
  | cons a as ih => exact ⟨himp s h.1, fun s' hs => ih (h.2 s' hs)⟩

theorem States.and {s : σ} {as : List α} (hi : States step I s as) (hj : States step J s as) :
    States step (fun t => I t ∧ J t) s as := by
  induction as generalizing s with
  | nil => exact ⟨hi, hj⟩
  | cons a as ih => exact ⟨⟨hi.1, hj.1⟩, fun s' hs => ih (hi.2 s' hs) (hj.2 s' hs)⟩

theorem Steps.mono {s : σ} {as : List α} (himp : ∀ t a, Q t a → R t a)
    (h : Steps step Q s as) : Steps step R s as := by
  induction as generalizing s with
  | nil => trivial
  | cons a as ih => exact fun s' hs => ⟨himp s a (h s' hs).1, ih (h s' hs).2⟩

theorem Steps.and {s : σ} {as : List α} (hq : Steps step Q s as) (hr : Steps step R s as) :
    Steps step (fun t a => Q t a ∧ R t a) s as := by
  induction as generalizing s with
  | nil => trivial
  | cons a as ih =>
    exact fun s' hs => ⟨⟨(hq s' hs).1, (hr s' hs).1⟩, ih (hq s' hs).2 (hr s' hs).2⟩

theorem steps_of_labels {L : α → Prop} {as : List α} (h : ∀ a ∈ as, L a) (s : σ) :
    Steps step (fun _ a => L a) s as := by
  induction as generalizing s with
  | nil => trivial
  | cons a as ih =>
    exact fun s' _ => ⟨h a List.mem_cons_self, ih (fun b hb => h b (List.mem_cons_of_mem a hb)) s'⟩

/-- The invariant rule: what holds at the start and is preserved by every step
that meets `Q` holds in every state of a run whose steps meet `Q`. -/
theorem states_of_steps {s : σ} {as : List α}
    (preserve : ∀ t a t', I t → Q t a → step t a = some t' → I t')
    (hinit : I s) (hsteps : Steps step Q s as) : States step I s as := by
  induction as generalizing s with
  | nil => exact hinit
  | cons a as ih =>
    refine ⟨hinit, fun s' hs => ?_⟩
    obtain ⟨hq, hrest⟩ := hsteps s' hs
    exact ih (preserve s a s' hinit hq hs) hrest

/-- A property of the steps of a run that follows, step by step, from another
one and from the invariant that one keeps. -/
theorem steps_of_steps {s : σ} {as : List α}
    (preserve : ∀ t a t', I t → Q t a → step t a = some t' → R t a ∧ I t')
    (hinit : I s) (hsteps : Steps step Q s as) : Steps step R s as := by
  induction as generalizing s with
  | nil => trivial
  | cons a as ih =>
    intro s' hs
    obtain ⟨hq, hrest⟩ := hsteps s' hs
    obtain ⟨hr, hinv⟩ := preserve s a s' hinit hq hs
    exact ⟨hr, ih hinv hrest⟩

/-- What is the same of every step the system can take is the same along a run. -/
theorem steps_congr {s : σ} (as : List α)
    (h : ∀ t a t', step t a = some t' → (Q t a ↔ R t a)) :
    Steps step Q s as ↔ Steps step R s as := by
  constructor
  · apply steps_of_steps (I := fun _ => True) _ trivial
    intro t a t' _ hq hs
    exact ⟨(h t a t' hs).mp hq, trivial⟩
  · apply steps_of_steps (I := fun _ => True) _ trivial
    intro t a t' _ hr hs
    exact ⟨(h t a t' hs).mpr hr, trivial⟩

theorem Steps.after {s t : σ} {as bs : List α} (h : Steps step Q s (as ++ bs))
    (hrun : run step s as = some t) : Steps step Q t bs := by
  induction as generalizing s with
  | nil =>
    cases hrun
    exact h
  | cons a as ih =>
    cases hs : step s a with
    | none => simp [run, hs] at hrun
    | some s' => exact ih (h s' hs).2 (by rwa [run_cons hs] at hrun)

/-- The unguarded invariant rule. -/
theorem states_of_invariant {s : σ} (as : List α)
    (preserve : ∀ t a t', I t → step t a = some t' → I t') (hinit : I s) :
    States step I s as := by
  induction as generalizing s with
  | nil => exact hinit
  | cons a as ih => exact ⟨hinit, fun s' hs => ih (preserve s a s' hinit hs)⟩

/-- What holds of every step out of an invariant state holds along the run. -/
theorem steps_of_states {s : σ} {as : List α}
    (hstep : ∀ t a t', I t → I t' → step t a = some t' → Q t a)
    (hstates : States step I s as) : Steps step Q s as := by
  induction as generalizing s with
  | nil => trivial
  | cons a as ih =>
    intro s' hs
    have htail := hstates.2 s' hs
    exact ⟨hstep s a s' hstates.1 htail.head hs, ih htail⟩

/-- Where an invariant `I` makes `P` after a step equivalent to `Q` of the step, `P`
holds in every state of a run exactly when `Q` holds of every step. -/
theorem states_iff_steps {s : σ} (as : List α)
    (preserve : ∀ t a t', I t → step t a = some t' → I t')
    (hstep : ∀ t a t', I t → P t → step t a = some t' → (P t' ↔ Q t a))
    (hinit : I s) (hhead : P s) : States step P s as ↔ Steps step Q s as := by
  induction as generalizing s with
  | nil => exact ⟨fun _ => trivial, fun _ => hhead⟩
  | cons a as ih =>
    constructor
    · intro hstates s' hs
      have htail := hstates.2 s' hs
      refine ⟨(hstep s a s' hinit hhead hs).mp htail.head, ?_⟩
      exact (ih (preserve s a s' hinit hs) htail.head).mp htail
    · intro hsteps
      refine ⟨hhead, fun s' hs => ?_⟩
      obtain ⟨hq, hrest⟩ := hsteps s' hs
      have hp := (hstep s a s' hinit hhead hs).mpr hq
      exact (ih (preserve s a s' hinit hs) hp).mpr hrest

/-- The last state of a run satisfies every invariant of its steps. -/
theorem run_invariant {s s' : σ} {as : List α}
    (preserve : ∀ t a t', I t → step t a = some t' → I t') (hinit : I s)
    (hrun : run step s as = some s') : I s' :=
  (states_of_invariant as preserve hinit).last hrun

/-- The steps of a run, checked one after the other. -/
def stepsCheck (step : σ → α → Option σ) (q : σ → α → Bool) : σ → List α → Bool
  | _, [] => true
  | s, a :: as =>
    match step s a with
    | none => true
    | some s' => q s a && stepsCheck step q s' as

theorem steps_of_stepsCheck {q : σ → α → Bool} (hq : ∀ t a, q t a = true → Q t a) {s : σ}
    {as : List α} (h : stepsCheck step q s as = true) : Steps step Q s as := by
  induction as generalizing s with
  | nil => trivial
  | cons a as ih =>
    intro s' hs
    rw [stepsCheck, hs, Bool.and_eq_true] at h
    exact ⟨hq s a h.1, ih h.2⟩

/-- The states of a run, checked one after the other. -/
def statesCheck (step : σ → α → Option σ) (p : σ → Bool) : σ → List α → Bool
  | s, [] => p s
  | s, a :: as =>
    p s && match step s a with
    | none => true
    | some s' => statesCheck step p s' as

theorem states_of_statesCheck {p : σ → Bool} (hp : ∀ t, p t = true → P t) {s : σ} {as : List α}
    (h : statesCheck step p s as = true) : States step P s as := by
  induction as generalizing s with
  | nil => exact hp s h
  | cons a as ih =>
    rw [statesCheck, Bool.and_eq_true] at h
    refine ⟨hp s h.1, fun s' hs => ih ?_⟩
    have hrest := h.2
    rwa [hs] at hrest

/-- What the steps of a run put out, one step after the other. -/
def outputs {β : Type*} (step : σ → α → Option σ) (out : σ → α → List β) : σ → List α → List β
  | _, [] => []
  | s, a :: as =>
    match step s a with
    | none => []
    | some s' => out s a ++ outputs step out s' as

/-- The invariant rule for a state together with all that was put out before it. -/
theorem outputs_invariant {β : Type*} {out : σ → α → List β} {I : σ → List β → Prop}
    {Q : σ → α → Prop} {s s' : σ} {as : List α} {h : List β}
    (preserve : ∀ t h a t', I t h → Q t a → step t a = some t' → I t' (h ++ out t a))
    (hinit : I s h) (hsteps : Steps step Q s as) (hrun : run step s as = some s') :
    I s' (h ++ outputs step out s as) := by
  induction as generalizing s h with
  | nil =>
    cases hrun
    rw [outputs, List.append_nil]
    exact hinit
  | cons a as ih =>
    cases hs : step s a with
    | none => simp [run, hs] at hrun
    | some t =>
      rw [run_cons hs] at hrun
      obtain ⟨hq, hrest⟩ := hsteps t hs
      have hnext := ih (preserve s h a t hinit hq hs) hrest hrun
      rw [List.append_assoc] at hnext
      rw [outputs, hs]
      exact hnext

end Lts
