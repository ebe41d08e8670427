import Vwifi.ClientPhases
import Vwifi.Lib.Tally

/-!
# The number of threads

`number_thread` is decremented by hand where a task leaves its loop. The monitor
leaves its loop without that when `init()` fails; the decrement at the
interruption point within `init_netlink` is never reached.
-/

namespace Vwifi

set_option autoImplicit false

open Tally

theorem Task.mem_all (t : Task) : t ∈ Task.all := by
  cases t <;> simp [Task.all]

theorem Task.all_nodup : Task.all.Nodup := by decide

/-- The loop of the task has not ended. -/
def Thread.alive (th : Thread) : Bool := th.point ≠ .ended

namespace Client

variable {libnl : Libnl} {c c' : Client} {t : Task} {a : Answer}

/-- How many of the tasks have not ended. -/
def running (c : Client) : Nat := tally Thread.alive Task.all c.threads

/-- The number of threads is that of the tasks that have not ended, so that `stop`
waits for all of them. -/
structure Counted (c : Client) : Prop where
  count : c.numberThread = c.running
  waits : c.numberThread = 0 ↔ ∀ t, (c.threads t).point = .ended

theorem running_eq_zero_iff : c.running = 0 ↔ ∀ t, (c.threads t).point = .ended := by
  rw [running, tally_eq_zero_iff]
  constructor
  · intro h t
    have ht := h t t.mem_all
    rwa [Thread.alive, decide_eq_false_iff_not, not_not] at ht
  · intro h t _
    rw [Thread.alive, h t]
    rfl

theorem counted_iff : Counted c ↔ c.numberThread = c.running := by
  refine ⟨Counted.count, fun h => ⟨h, ?_⟩⟩
  rw [h, ← running_eq_zero_iff]
  omega

/-- `init()` does not fail in the loop of the monitor: the allocations of
`init_netlink` and the registration succeed. -/
def Initializes : Label → Prop
  | .thread .monitorloop (.result ok) => ok = true
  | _ => True

theorem initializes_proceed (t : Task) : Initializes (.thread t .proceed) := by
  cases t <;> trivial

/-! ## One step -/

theorem running_congr (h : ∀ x, (c'.threads x).point = (c.threads x).point) :
    c'.running = c.running := by
  apply tally_congr
  intro x _
  rw [Thread.alive, Thread.alive, h x]

theorem running_goto {p : Point} (c : Client) (h : (c.threads t).point ≠ .ended) :
    (c.goto t p).running + (if p = .ended then 1 else 0) = c.running := by
  have htally := @tally_update _ _ Thread.alive _ c.threads _ Task.all_nodup t t.mem_all
    { c.threads t with point := p }
  have halive : (c.threads t).alive = true := decide_eq_true h
  rw [halive] at htally
  by_cases hp : p = .ended
  · subst hp
    rw [if_pos rfl]
    exact htally
  · have halive' : Thread.alive { c.threads t with point := p } = true := decide_eq_true hp
    rw [halive'] at htally
    rw [if_neg hp]
    exact Nat.succ_injective htally

theorem running_goto_alive {p : Point} (c : Client) (h : (c.threads t).point ≠ .ended)
    (hp : p ≠ .ended) : (c.goto t p).running = c.running := by
  have hrunning := running_goto (p := p) c h
  rwa [if_neg hp] at hrunning

theorem running_goto_ended (c : Client) (h : (c.threads t).point ≠ .ended) :
    (c.goto t .ended).running + 1 = c.running := running_goto c h

theorem ThreadCases.not_ended (h : ThreadCases libnl c t a c') :
    (c.threads t).point ≠ .ended := by
  have halive {p : Point} (hpoint : (c.threads t).point = p) (hp : p ≠ .ended) :
      (c.threads t).point ≠ .ended := hpoint ▸ hp
  cases h with
  | interrupted hpoint _ => exact halive hpoint nofun
  | enter hpoint => exact halive hpoint nofun
  | move hpoint _ =>
    rcases hpoint with hpoint | hpoint
    · exact halive hpoint nofun
    · exact halive hpoint nofun
  | message hpoint _ => exact halive hpoint nofun
  | selected hpoint _ => exact halive hpoint nofun
  | unloaded hpoint _ => exact halive hpoint nofun
  | initFailed hpoint => exact halive hpoint nofun
  | resolved hpoint => exact halive hpoint nofun
  | leaveWait hpoint _ => exact halive hpoint nofun
  | waitInterrupted hpoint _ => exact halive hpoint nofun
  | waitMore hpoint _ => exact halive hpoint nofun
  | registered hpoint => exact halive hpoint nofun
  | registerFailed hpoint => exact halive hpoint nofun
  | closed hpoint _ => exact halive hpoint nofun
  | attempted hpoint _ => exact halive hpoint nofun
  | announced hpoint => exact halive hpoint nofun

section Step

variable (hphased : Phased c) (hcounted : Counted c)
include hcounted

theorem counted_of_eq (hnumber : c'.numberThread = c.numberThread)
    (hrunning : c'.running = c.running) : Counted c' := by
  rw [counted_iff, hnumber, hrunning]
  exact hcounted.count

theorem counted_goto {d : Client} {p : Point} (hd : d.running = c.running)
    (hnumber : d.numberThread = c.numberThread) (halive : (d.threads t).point ≠ .ended)
    (hp : p ≠ .ended) : Counted (d.goto t p) :=
  counted_of_eq hcounted hnumber ((running_goto_alive d halive hp).trans hd)

/-- A task that leaves its loop without `dead()`. -/
theorem not_counted_ended {d : Client} (hd : d.running = c.running)
    (hnumber : d.numberThread = c.numberThread) (halive : (d.threads t).point ≠ .ended) :
    ¬ Counted (d.goto t .ended) := by
  intro h
  have hended := running_goto_ended d halive
  have hcount : d.numberThread = (d.goto t .ended).running := h.count
  have hbefore := hcounted.count
  omega

include hphased

theorem ThreadCases.counted_iff (h : ThreadCases libnl c t a c') :
    Counted c' ↔ Initializes (.thread t a) := by
  have halive := h.not_ended
  cases h with
  | interrupted hpoint _ =>
    refine iff_of_true ?_ (initializes_proceed t)
    have hended := running_goto_ended c.dead halive
    have hsame : c.dead.running = c.running := rfl
    have hcount := hcounted.count
    rw [Client.counted_iff]
    change c.numberThread - 1 = _
    omega
  | enter hpoint =>
    exact iff_of_true (counted_goto hcounted rfl rfl halive nofun) (initializes_proceed t)
  | move hpoint hp =>
    refine iff_of_true (counted_goto hcounted rfl rfl halive ?_) (initializes_proceed t)
    rcases hp with rfl | rfl
    · exact nofun
    · exact nofun
  | message hpoint _ => exact iff_of_true (counted_of_eq hcounted rfl rfl) trivial
  | selected hpoint _ => exact iff_of_true (counted_goto hcounted rfl rfl halive nofun) trivial
  | unloaded hpoint _ => exact iff_of_true (counted_goto hcounted rfl rfl halive nofun) trivial
  | initFailed hpoint =>
    exact iff_of_false (not_counted_ended hcounted rfl rfl halive) Bool.false_ne_true
  | resolved hpoint => exact iff_of_true (counted_goto hcounted rfl rfl halive nofun) rfl
  | leaveWait hpoint _ => exact iff_of_true (counted_goto hcounted rfl rfl halive nofun) trivial
  | waitInterrupted hpoint hinit =>
    -- the client is no longer being initialized when the monitor runs
    rw [hphased.initializing hinit .monitorloop] at hpoint
    cases hpoint
  | waitMore hpoint hinit =>
    rw [hphased.initializing hinit .monitorloop] at hpoint
    cases hpoint
  | registered hpoint => exact iff_of_true (counted_goto hcounted rfl rfl halive nofun) rfl
  | registerFailed hpoint =>
    exact iff_of_false (not_counted_ended hcounted rfl rfl halive) Bool.false_ne_true
  | closed hpoint _ => exact iff_of_true (counted_goto hcounted rfl rfl halive nofun) trivial
  | attempted hpoint _ =>
    refine iff_of_true (counted_goto hcounted rfl rfl halive ?_) trivial
    split
    · exact nofun
    · exact nofun
  | announced hpoint => exact iff_of_true (counted_goto hcounted rfl rfl halive nofun) trivial

theorem MainCases.counted (h : MainCases c a c') : Counted c' := by
  cases h with
  | startTask hmain =>
    rename_i t rest
    refine counted_of_eq hcounted rfl ?_
    have hpoint := (hphased.tasks _ hmain).2 t List.mem_cons_self
    apply tally_congr
    intro x _
    have hx := startTask_point c t x
    simp only [Thread.alive, goMain, hx]
    by_cases heq : x = t
    · subst heq
      simp [hpoint]
    · simp [heq]
  | created _ => exact counted_of_eq hcounted rfl rfl
  | resolved _ => exact counted_of_eq hcounted rfl rfl
  | found _ _ => exact counted_of_eq hcounted rfl rfl
  | waitMore _ => exact counted_of_eq hcounted rfl rfl
  | registered _ => exact counted_of_eq hcounted rfl rfl
  | registerFailed _ => exact counted_of_eq hcounted rfl rfl
  | initialized _ => exact counted_of_eq hcounted rfl rfl
  | monitored _ => exact counted_of_eq hcounted rfl rfl
  | attempted _ _ => exact counted_of_eq hcounted rfl rfl
  | retry _ => exact counted_of_eq hcounted rfl rfl
  | announced _ => exact counted_of_eq hcounted rfl rfl
  | started _ => exact counted_of_eq hcounted rfl rfl
  | returned _ => exact counted_of_eq hcounted rfl rfl

theorem step_counted_iff {l : Label} (h : c.step libnl l = some c') :
    Counted c' ↔ Initializes l := by
  cases step_cases h with
  | main h => exact iff_of_true (h.counted hphased hcounted) trivial
  | thread h => exact h.counted_iff hphased hcounted
  | stop h =>
    have hframe := h.frame
    exact iff_of_true
      (counted_of_eq hcounted hframe.numberThread (running_congr hframe.points)) trivial
  | driver => exact iff_of_true (counted_of_eq hcounted rfl rfl) trivial
  | interfaces => exact iff_of_true (counted_of_eq hcounted rfl rfl) trivial

end Step

theorem init_counted (heap : Nat → UInt8) (driver : Int) : Counted (init heap driver) :=
  counted_iff.mpr rfl

/-- Along a run the number of threads is that of the tasks that have not ended
exactly as long as `init()` does not fail in the loop of the monitor. -/
theorem counted_exact_iff (libnl : Libnl) (heap : Nat → UInt8) (driver : Int)
    (labels : List Label) :
    Lts.States (step libnl) Counted (init heap driver) labels ↔
      Lts.Steps (step libnl) (fun _ l => Initializes l) (init heap driver) labels := by
  apply Lts.states_iff_steps labels (I := Phased)
  · exact fun c l c' hphased h => step_phased hphased h
  · exact fun c l c' hphased hcounted h => step_counted_iff hphased hcounted h
  · exact init_phased heap driver
  · exact init_counted heap driver

/-- The driver is unloaded and `init_netlink` cannot allocate its socket: the monitor
ends, and `stop` would wait for ever. -/
theorem counted_exact_fails :
    ¬ Lts.States (step Libnl.walk) Counted (init (fun _ => 0) 30)
      (calmStart ⟨5, [], []⟩ ++ findsUnloaded ++ [.thread .monitorloop (.result false)]) := by
  intro h
  have hrun : (Lts.run (step Libnl.walk) (init (fun _ => 0) 30)
      (calmStart ⟨5, [], []⟩ ++ findsUnloaded ++ [.thread .monitorloop (.result false)])).map
        (fun c => (c.numberThread, c.running)) = some (5, 4) := by
    decide +kernel
  obtain ⟨c, hc, heq⟩ := Option.map_eq_some_iff.mp hrun
  obtain ⟨hnumber, hrunning⟩ := Prod.mk.inj heq
  have hcount := (h.last hc).count
  omega

end Client

end Vwifi
