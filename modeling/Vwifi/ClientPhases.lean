import Vwifi.ClientStep

/-!
# The order of things in `start`

No task runs before `start` starts it, none is started twice, and the client is
no longer being initialized when the first one is started.
-/

namespace Vwifi

set_option autoImplicit false

/-- `start` has not come to the tasks. -/
def MainPoint.beforeTasks : MainPoint → Bool
  | startTasks _ => false
  | join => false
  | returned => false
  | _ => true

/-- `start` is behind its initialization. -/
def MainPoint.afterInit : MainPoint → Bool
  | monitorWireless => true
  | connect => true
  | retry => true
  | announce => true
  | startTasks _ => true
  | join => true
  | _ => false

namespace Client

variable {libnl : Libnl} {c c' : Client} {t : Task} {a : Answer}

/-! ## Frames -/

theorem goto_point (c : Client) (t : Task) (p : Point) (x : Task) :
    ((c.goto t p).threads x).point = if x = t then p else (c.threads x).point := by
  by_cases h : x = t
  · subst h
    simp [goto]
  · simp [goto, h]

theorem goto_threads_of_ne (c : Client) {t x : Task} (p : Point) (h : x ≠ t) :
    (c.goto t p).threads x = c.threads x := Function.update_of_ne h _ _

theorem interrupt_point (c : Client) (t x : Task) :
    ((c.interrupt t).threads x).point = (c.threads x).point := by
  by_cases h : x = t
  · subst h
    simp [interrupt]
  · simp [interrupt, h]

theorem startTask_point (c : Client) (t x : Task) :
    ((c.startTask t).threads x).point =
      if x = t then .interruptionPoint else (c.threads x).point := by
  by_cases h : x = t
  · subst h
    simp [startTask]
  · simp [startTask, h]

/-- What the step of the task `t` leaves as it is. -/
structure ThreadFrame (c c' : Client) (t : Task) : Prop where
  running : (c.threads t).point ≠ .notStarted
  main : c'.main = c.main
  others : ∀ x, x ≠ t → c'.threads x = c.threads x
  beingInitialized : c'.wifi.beingInitialized = c.wifi.beingInitialized

theorem ThreadCases.frame (h : ThreadCases libnl c t a c') : ThreadFrame c c' t := by
  have hrunning {p : Point} (hpoint : (c.threads t).point = p) (hp : p ≠ .notStarted) :
      (c.threads t).point ≠ .notStarted := hpoint ▸ hp
  cases h with
  | interrupted hpoint _ =>
    exact ⟨hrunning hpoint nofun, rfl, fun x hx => goto_threads_of_ne _ _ hx, rfl⟩
  | enter hpoint => exact ⟨hrunning hpoint nofun, rfl, fun x hx => goto_threads_of_ne _ _ hx, rfl⟩
  | move hpoint _ =>
    refine ⟨?_, rfl, fun x hx => goto_threads_of_ne _ _ hx, rfl⟩
    rcases hpoint with hpoint | hpoint
    · exact hrunning hpoint nofun
    · exact hrunning hpoint nofun
  | message hpoint h =>
    exact ⟨hrunning hpoint nofun, rfl, fun _ _ => rfl,
      (CKernelWifi.processMessages_handles h).beingInitialized⟩
  | selected hpoint h =>
    exact ⟨hrunning hpoint nofun, rfl, fun x hx => goto_threads_of_ne _ _ hx,
      (CKernelWifi.recvFromServer_handles h).beingInitialized⟩
  | unloaded hpoint _ =>
    exact ⟨hrunning hpoint nofun, rfl, fun x hx => goto_threads_of_ne _ _ hx, rfl⟩
  | initFailed hpoint =>
    exact ⟨hrunning hpoint nofun, rfl, fun x hx => goto_threads_of_ne _ _ hx, rfl⟩
  | resolved hpoint =>
    exact ⟨hrunning hpoint nofun, rfl, fun x hx => goto_threads_of_ne _ _ hx, rfl⟩
  | leaveWait hpoint _ =>
    exact ⟨hrunning hpoint nofun, rfl, fun x hx => goto_threads_of_ne _ _ hx, rfl⟩
  | waitInterrupted hpoint _ =>
    exact ⟨hrunning hpoint nofun, rfl, fun x hx => goto_threads_of_ne _ _ hx, rfl⟩
  | waitMore hpoint _ => exact ⟨hrunning hpoint nofun, rfl, fun _ _ => rfl, rfl⟩
  | registered hpoint =>
    exact ⟨hrunning hpoint nofun, rfl, fun x hx => goto_threads_of_ne _ _ hx, rfl⟩
  | registerFailed hpoint =>
    exact ⟨hrunning hpoint nofun, rfl, fun x hx => goto_threads_of_ne _ _ hx, rfl⟩
  | closed hpoint _ =>
    exact ⟨hrunning hpoint nofun, rfl, fun x hx => goto_threads_of_ne _ _ hx, rfl⟩
  | attempted hpoint _ =>
    exact ⟨hrunning hpoint nofun, rfl, fun x hx => goto_threads_of_ne _ _ hx, rfl⟩
  | announced hpoint =>
    exact ⟨hrunning hpoint nofun, rfl, fun x hx => goto_threads_of_ne _ _ hx, rfl⟩

/-- What a step of `stop` leaves as it is. -/
structure StopFrame (c c' : Client) : Prop where
  hwsim : c'.wifi.hwsim = c.wifi.hwsim
  numberThread : c'.numberThread = c.numberThread
  main : c'.main = c.main
  points : ∀ x, (c'.threads x).point = (c.threads x).point
  beingInitialized : c'.wifi.beingInitialized = true → c.wifi.beingInitialized = true

theorem StopCases.frame (h : StopCases c c') : StopFrame c c' := by
  cases h with
  | initializing h => exact ⟨rfl, rfl, rfl, fun _ => rfl, fun _ => h⟩
  | starting _ => exact ⟨rfl, rfl, rfl, fun _ => rfl, id⟩
  | close _ _ _ _ => exact ⟨rfl, rfl, rfl, fun _ => rfl, id⟩
  | interrupt hstop => exact ⟨rfl, rfl, rfl, fun x => interrupt_point c _ x, id⟩
  | unconnected _ _ => exact ⟨rfl, rfl, rfl, fun _ => rfl, id⟩
  | interrupted _ => exact ⟨rfl, rfl, rfl, fun _ => rfl, id⟩
  | done _ _ => exact ⟨rfl, rfl, rfl, fun _ => rfl, id⟩

/-! ## The invariant -/

structure Phased (c : Client) : Prop where
  beforeTasks : c.main.beforeTasks = true → ∀ x, (c.threads x).point = .notStarted
  tasks : ∀ ts, c.main = .startTasks ts → ts.Nodup ∧ ∀ x ∈ ts, (c.threads x).point = .notStarted
  initializing : c.wifi.beingInitialized = true → ∀ x, (c.threads x).point = .notStarted
  afterInit : c.main.afterInit = true → c.wifi.beingInitialized = false

theorem init_phased (heap : Nat → UInt8) (driver : Int) : Phased (init heap driver) where
  beforeTasks := fun _ _ => rfl
  tasks := nofun
  initializing := nofun
  afterInit := nofun

section Preserved

variable (hphased : Phased c)
include hphased

theorem ThreadCases.phased (h : ThreadCases libnl c t a c') : Phased c' := by
  have hframe := h.frame
  -- a task that takes a step is one that was started
  have hstarted : ¬ ∀ x, (c.threads x).point = .notStarted := fun hall => hframe.running (hall t)
  refine ⟨?_, ?_, ?_, ?_⟩
  · rw [hframe.main]
    exact fun hbefore => absurd (hphased.beforeTasks hbefore) hstarted
  · rw [hframe.main]
    intro ts hts
    obtain ⟨hnodup, hpoints⟩ := hphased.tasks ts hts
    refine ⟨hnodup, fun x hx => ?_⟩
    have hne : x ≠ t := fun heq => hframe.running (heq ▸ hpoints x hx)
    rw [hframe.others x hne]
    exact hpoints x hx
  · rw [hframe.beingInitialized]
    exact fun hinit => absurd (hphased.initializing hinit) hstarted
  · rw [hframe.main, hframe.beingInitialized]
    exact hphased.afterInit

theorem StopCases.phased (h : StopCases c c') : Phased c' := by
  have hframe := h.frame
  have hpoints {P : Task → Prop} (hall : ∀ x, P x → (c.threads x).point = .notStarted) :
      ∀ x, P x → (c'.threads x).point = .notStarted :=
    fun x hx => (hframe.points x).trans (hall x hx)
  refine ⟨?_, ?_, ?_, ?_⟩
  · rw [hframe.main]
    exact fun hbefore x => (hframe.points x).trans (hphased.beforeTasks hbefore x)
  · rw [hframe.main]
    exact fun ts hts => ⟨(hphased.tasks ts hts).1, hpoints (hphased.tasks ts hts).2⟩
  · intro hinit x
    exact (hframe.points x).trans (hphased.initializing (hframe.beingInitialized hinit) x)
  · rw [hframe.main]
    intro hafter
    cases hc : c'.wifi.beingInitialized with
    | false => rfl
    | true => exact absurd (hphased.afterInit hafter ▸ hframe.beingInitialized hc) nofun

/-- A move of `start` among the points before the tasks. -/
theorem phased_before (hbefore : c.main.beforeTasks = true)
    (hpoints : ∀ x, (c'.threads x).point = (c.threads x).point)
    (htasks : ∀ ts, c'.main = .startTasks ts → ts.Nodup)
    (hafter : c'.main.afterInit = true → c'.wifi.beingInitialized = false) : Phased c' := by
  have hall : ∀ x, (c'.threads x).point = .notStarted :=
    fun x => (hpoints x).trans (hphased.beforeTasks hbefore x)
  exact ⟨fun _ => hall, fun ts hts => ⟨htasks ts hts, fun x _ => hall x⟩, fun _ => hall, hafter⟩

theorem MainCases.phased (h : MainCases c a c') : Phased c' := by
  have hbefore {p : MainPoint} (hmain : c.main = p) (hp : p.beforeTasks = true) :
      c.main.beforeTasks = true := hmain ▸ hp
  have hinit {p : MainPoint} (hmain : c.main = p) (hp : p.afterInit = true) :
      c.wifi.beingInitialized = false := hphased.afterInit (hmain ▸ hp)
  cases h with
  | created hmain =>
    refine phased_before hphased (hbefore hmain rfl) (fun _ => rfl) ?_ ?_
    · intro ts hts
      simp only [goMain] at hts
      split at hts <;> cases hts
    · intro hafter
      simp only [goMain] at hafter
      split at hafter <;> cases hafter
  | resolved hmain => exact phased_before hphased (hbefore hmain rfl) (fun _ => rfl) nofun nofun
  | found hmain _ => exact phased_before hphased (hbefore hmain rfl) (fun _ => rfl) nofun nofun
  | waitMore hmain =>
    refine phased_before hphased (hbefore hmain rfl) (fun _ => rfl) ?_ ?_
    · exact fun ts hts => (hphased.tasks ts hts).1
    · exact hphased.afterInit
  | registered hmain => exact phased_before hphased (hbefore hmain rfl) (fun _ => rfl) nofun nofun
  | registerFailed hmain =>
    exact phased_before hphased (hbefore hmain rfl) (fun _ => rfl) nofun nofun
  | initialized hmain =>
    exact phased_before hphased (hbefore hmain rfl) (fun _ => rfl) nofun fun _ => rfl
  | monitored hmain =>
    exact phased_before hphased (hbefore hmain rfl) (fun _ => rfl) nofun fun _ => hinit hmain rfl
  | attempted hmain _ =>
    refine phased_before hphased (hbefore hmain rfl) (fun _ => rfl) ?_ ?_
    · intro ts hts
      simp only [goMain] at hts
      split at hts <;> cases hts
    · exact fun _ => hinit hmain rfl
  | retry hmain =>
    exact phased_before hphased (hbefore hmain rfl) (fun _ => rfl) nofun fun _ => hinit hmain rfl
  | announced hmain =>
    refine phased_before hphased (hbefore hmain rfl) (fun _ => rfl) ?_ ?_
    · intro ts hts
      cases hts
      decide
    · exact fun _ => hinit hmain rfl
  | startTask hmain =>
    rename_i t rest
    obtain ⟨hnodup, hpoints⟩ := hphased.tasks _ hmain
    obtain ⟨hnotin, hrest⟩ := List.nodup_cons.mp hnodup
    have hfalse := hinit hmain rfl
    refine ⟨nofun, ?_, fun h => absurd (hfalse.symm.trans h) Bool.false_ne_true, fun _ => hfalse⟩
    intro ts hts
    cases hts
    refine ⟨hrest, fun x hx => ?_⟩
    have hne : x ≠ t := fun heq => hnotin (heq ▸ hx)
    exact (startTask_point c t x).trans
      ((if_neg hne).trans (hpoints x (List.mem_cons_of_mem t hx)))
  | started hmain =>
    have hfalse := hinit hmain rfl
    exact ⟨nofun, nofun, fun h => absurd (hfalse.symm.trans h) Bool.false_ne_true, fun _ => hfalse⟩
  | returned _ => exact ⟨nofun, nofun, hphased.initializing, nofun⟩

theorem step_phased {l : Label} (h : c.step libnl l = some c') : Phased c' := by
  cases step_cases h with
  | main h => exact h.phased hphased
  | thread h => exact h.phased hphased
  | stop h => exact h.phased hphased
  | driver => exact ⟨hphased.beforeTasks, hphased.tasks, hphased.initializing, hphased.afterInit⟩
  | interfaces =>
    exact ⟨hphased.beforeTasks, hphased.tasks, hphased.initializing, hphased.afterInit⟩

end Preserved

/-- The steps of a `start` that finds the driver and the server. -/
def calmStart (s : Incoming) : List Label :=
  [.main .proceed, .main (.result true), .main .proceed, .main (.result true), .main .proceed,
    .main (.result true), .main (.attempt (.connected s)), .main .proceed] ++
    Task.all.map (fun _ => .main .proceed) ++ [.main .proceed]

/-- A whole turn of the monitor that finds the driver gone, up to `init()`. -/
def findsUnloaded : List Label :=
  [.driver (-1), .thread .monitorloop .proceed, .thread .monitorloop .proceed]

end Client

end Vwifi
