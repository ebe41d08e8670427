import Vwifi.ClientPhases

/-!
# The family the client is registered with

`init()` sets the flag that the client is initialized behind a registration, but
the loop that waits for the driver in `init_netlink` waits only while the client
is being initialized, which it is not when the monitor calls it.
-/

namespace Vwifi

set_option autoImplicit false

/-- The monitor is within `init()`. -/
def Point.inInit : Point → Bool
  | initNetlink => true
  | waitDriver => true
  | sendRegisterMsg => true
  | _ => false

/-- The monitor is within `init()`, and the family was asked for. -/
def Point.resolved : Point → Bool
  | waitDriver => true
  | sendRegisterMsg => true
  | _ => false

/-- `start` has not come to the end of `init_first()`. -/
def MainPoint.beforeInit : MainPoint → Bool
  | created => true
  | initNetlinkFirst => true
  | waitDriver => true
  | sendRegisterMsg => true
  | _ => false

theorem MainPoint.beforeTasks_of_beforeInit {p : MainPoint} (h : p.beforeInit = true) :
    p.beforeTasks = true := by
  cases p <;> first | rfl | cases h

theorem MainPoint.ne_of_not_beforeInit {p : MainPoint} (h : p.beforeInit = false) :
    p ≠ .sendRegisterMsg := by
  rintro rfl
  cases h

/-- The family of a registration that was sent. -/
def HwsimCall.registered (c : HwsimCall) : Option Int :=
  match c.msg with
  | .register id => if c.sent then some id else none
  | _ => none

theorem HwsimCall.registered_eq_none {c : HwsimCall} (h : c.msg.isRegister = false) :
    c.registered = none := by
  unfold registered
  split
  · rename_i heq
    rw [heq] at h
    cases h
  · rfl

namespace Hwsim

/-- The family of the last registration that was sent. -/
def lastRegistered (h : Hwsim) : Option Int := h.calls.reverse.findSome? HwsimCall.registered

theorem lastRegistered_append {h h' : Hwsim} {calls : List HwsimCall}
    (heq : h'.calls = h.calls ++ calls) (hcalls : ∀ c ∈ calls, c.msg.isRegister = false) :
    h'.lastRegistered = h.lastRegistered := by
  have hnone : calls.reverse.findSome? HwsimCall.registered = none := by
    apply List.findSome?_eq_none_iff.mpr
    intro c hc
    exact HwsimCall.registered_eq_none (hcalls c (List.mem_reverse.mp hc))
  rw [lastRegistered, heq, List.reverse_append, List.findSome?_append, hnone, Option.none_or]
  rfl

theorem lastRegistered_register (h : Hwsim) :
    (h.sendRegisterMsg true).lastRegistered = some h.familyId := by
  simp [lastRegistered, sendRegisterMsg, call, HwsimCall.registered]

end Hwsim

namespace Client

variable {libnl : Libnl} {c c' : Client} {t : Task} {a : Answer}

/-- A client that is initialized uses the family it registered with last. -/
def Registered (c : Client) : Prop :=
  c.wifi.hwsim.initialized = true →
    0 ≤ c.wifi.hwsim.familyId ∧ c.wifi.hwsim.lastRegistered = some c.wifi.hwsim.familyId

/-- The driver is there when `init_netlink` asks for its family in the loop of the
monitor. -/
def FindsDriver (c : Client) : Label → Prop
  | .thread .monitorloop (.result ok) =>
    (c.threads .monitorloop).point = .initNetlink → ok = true → 0 ≤ c.driver
  | _ => True

/-- The steps of `init()` in the loop of the monitor when nothing fails. -/
def initAgain : List Label :=
  [.thread .monitorloop (.result true), .thread .monitorloop .proceed,
    .thread .monitorloop (.result true)]

/-- What the two threads that call `init()` know of the family. -/
structure Resolving (c : Client) : Prop where
  registered : Registered c
  inInit : (c.threads .monitorloop).point.inInit = true → c.wifi.hwsim.initialized = false
  resolved : (c.threads .monitorloop).point.resolved = true → 0 ≤ c.wifi.hwsim.familyId
  beforeInit : c.main.beforeInit = true → c.wifi.hwsim.initialized = false
  found : c.main = .sendRegisterMsg → 0 ≤ c.wifi.hwsim.familyId

theorem init_resolving (heap : Nat → UInt8) (driver : Int) : Resolving (init heap driver) where
  registered := nofun
  inInit := nofun
  resolved := nofun
  beforeInit := fun _ => rfl
  found := nofun

/-! ## One step -/

/-- A step that leaves the side of the driver as it is and brings nobody further
into `init()`. -/
theorem resolving_of_same (h : Resolving c)
    (hfamily : c'.wifi.hwsim.familyId = c.wifi.hwsim.familyId)
    (hinit : c'.wifi.hwsim.initialized = c.wifi.hwsim.initialized)
    (hlast : c'.wifi.hwsim.lastRegistered = c.wifi.hwsim.lastRegistered)
    (hin : (c'.threads .monitorloop).point.inInit = true →
      (c.threads .monitorloop).point.inInit = true)
    (hresolved : (c'.threads .monitorloop).point.resolved = true →
      (c.threads .monitorloop).point.resolved = true)
    (hbefore : c'.main.beforeInit = true → c.main.beforeInit = true)
    (hfound : c'.main = .sendRegisterMsg → 0 ≤ c.wifi.hwsim.familyId) : Resolving c' where
  registered := by
    rw [Registered, hfamily, hinit, hlast]
    exact h.registered
  inInit := fun hp => hinit.trans (h.inInit (hin hp))
  resolved := fun hp => hfamily ▸ h.resolved (hresolved hp)
  beforeInit := fun hp => hinit.trans (h.beforeInit (hbefore hp))
  found := fun hp => hfamily ▸ hfound hp

theorem resolving_late (h : Resolving c)
    (hfamily : c'.wifi.hwsim.familyId = c.wifi.hwsim.familyId)
    (hinit : c'.wifi.hwsim.initialized = c.wifi.hwsim.initialized)
    (hlast : c'.wifi.hwsim.lastRegistered = c.wifi.hwsim.lastRegistered)
    (hin : (c'.threads .monitorloop).point.inInit = true →
      (c.threads .monitorloop).point.inInit = true)
    (hresolved : (c'.threads .monitorloop).point.resolved = true →
      (c.threads .monitorloop).point.resolved = true)
    (hmain : c'.main.beforeInit = false) : Resolving c' :=
  resolving_of_same h hfamily hinit hlast hin hresolved
    (fun hp => absurd (hmain.symm.trans hp) Bool.false_ne_true)
    fun heq => absurd heq (MainPoint.ne_of_not_beforeInit hmain)

theorem resolving_goto {d : Client} {p : Point} (h : Resolving d) (hin : p.inInit = false)
    (hresolved : p.resolved = false) : Resolving (d.goto t p) := by
  have hpoint := goto_point d t p .monitorloop
  refine resolving_of_same h rfl rfl rfl ?_ ?_ id h.found
  · intro hp
    rw [hpoint] at hp
    split at hp
    · exact absurd (hin.symm.trans hp) Bool.false_ne_true
    · exact hp
  · intro hp
    rw [hpoint] at hp
    split at hp
    · exact absurd (hresolved.symm.trans hp) Bool.false_ne_true
    · exact hp

theorem resolving_handles {s : CKernelWifi} (h : Resolving c) (hs : c.wifi.Handles s) :
    Resolving { c with wifi := s } := by
  obtain ⟨calls, hcalls, hregister⟩ := hs.calls
  exact resolving_of_same h hs.familyId hs.initialized
    (Hwsim.lastRegistered_append hcalls hregister)
    id id id h.found

theorem resolving_withUplink (h : Resolving c) (u : Uplink) : Resolving (c.withUplink u) :=
  resolving_of_same h rfl rfl rfl id id id h.found

section Thread

variable (hphased : Phased c)
include hphased

/-- When the monitor runs, `start` is behind its own initialization. -/
theorem not_beforeInit (hrunning : (c.threads t).point ≠ .notStarted) :
    c.main.beforeInit = false := by
  cases h : c.main.beforeInit with
  | false => rfl
  | true =>
    exact absurd (hphased.beforeTasks (MainPoint.beforeTasks_of_beforeInit h) t) hrunning

variable (hresolving : Resolving c)
include hresolving

theorem ThreadCases.resolving (h : ThreadCases libnl c t a c')
    (hfinds : FindsDriver c (.thread t a)) : Resolving c' := by
  have hbefore := not_beforeInit hphased h.frame.running
  have hmain := MainPoint.ne_of_not_beforeInit hbefore
  cases h with
  | interrupted _ _ =>
    have hdead : Resolving c.dead :=
      resolving_of_same hresolving rfl rfl rfl id id id hresolving.found
    exact resolving_goto hdead rfl rfl
  | enter _ => exact resolving_goto hresolving rfl rfl
  | move _ hp =>
    rcases hp with rfl | rfl
    · exact resolving_goto hresolving rfl rfl
    · exact resolving_goto hresolving rfl rfl
  | message _ h =>
    exact resolving_handles hresolving (CKernelWifi.processMessages_handles h)
  | selected _ h =>
    exact resolving_goto (resolving_handles hresolving (CKernelWifi.recvFromServer_handles h))
      rfl rfl
  | unloaded _ _ =>
    exact ⟨nofun, fun _ => rfl, nofun, fun _ => rfl, fun heq => absurd heq hmain⟩
  | initFailed _ => exact resolving_goto hresolving rfl rfl
  | resolved hpoint =>
    -- the only place where the driver has to be there
    have hinit : c.wifi.hwsim.initialized = false := hresolving.inInit (by rw [hpoint]; rfl)
    refine ⟨fun h => ?_, fun _ => hinit, fun _ => hfinds hpoint rfl, fun _ => hinit,
      fun heq => absurd heq hmain⟩
    exact absurd (hinit.symm.trans h) Bool.false_ne_true
  | leaveWait hpoint _ =>
    have hin : (c.threads .monitorloop).point.inInit = true := by rw [hpoint]; rfl
    have hres : (c.threads .monitorloop).point.resolved = true := by rw [hpoint]; rfl
    exact resolving_of_same hresolving rfl rfl rfl (fun _ => hin) (fun _ => hres) id
      hresolving.found
  | waitInterrupted hpoint hinit =>
    rw [hphased.initializing hinit .monitorloop] at hpoint
    cases hpoint
  | waitMore hpoint hinit =>
    rw [hphased.initializing hinit .monitorloop] at hpoint
    cases hpoint
  | registered hpoint =>
    have hfamily : 0 ≤ c.wifi.hwsim.familyId := hresolving.resolved (by rw [hpoint]; rfl)
    have hlast := Hwsim.lastRegistered_register c.wifi.hwsim
    exact ⟨fun _ => ⟨hfamily, hlast⟩, nofun, nofun,
      fun hp => absurd (hbefore.symm.trans hp) Bool.false_ne_true, fun heq => absurd heq hmain⟩
  | registerFailed hpoint =>
    have hinit : c.wifi.hwsim.initialized = false := hresolving.inInit (by rw [hpoint]; rfl)
    exact ⟨fun h => absurd (hinit.symm.trans h) Bool.false_ne_true, nofun, nofun,
      fun _ => hinit, fun heq => absurd heq hmain⟩
  | closed _ _ => exact resolving_goto (resolving_withUplink hresolving _) rfl rfl
  | attempted _ _ =>
    split
    · exact resolving_goto (resolving_withUplink hresolving _) rfl rfl
    · exact resolving_goto (resolving_withUplink hresolving _) rfl rfl
  | announced _ => exact resolving_goto (resolving_withUplink hresolving _) rfl rfl

theorem MainCases.resolving (h : MainCases c a c') : Resolving c' := by
  -- while `start` initializes, the monitor is not there
  have hinit {p : MainPoint} (hmain : c.main = p) (hp : p.beforeInit = true) :
      c.wifi.hwsim.initialized = false ∧ (c.threads .monitorloop).point.inInit = false ∧
        (c.threads .monitorloop).point.resolved = false := by
    subst hmain
    have hpoint := hphased.beforeTasks (MainPoint.beforeTasks_of_beforeInit hp) .monitorloop
    rw [hpoint]
    exact ⟨hresolving.beforeInit hp, rfl, rfl⟩
  cases h with
  | created hmain =>
    obtain ⟨hfalse, _, _⟩ := hinit hmain rfl
    rw [hfalse]
    exact resolving_of_same hresolving rfl rfl rfl id id (fun _ => by rw [hmain]; rfl) nofun
  | resolved hmain =>
    obtain ⟨hfalse, _, hresolved⟩ := hinit hmain rfl
    exact ⟨fun h => absurd (hfalse.symm.trans h) Bool.false_ne_true, fun _ => hfalse,
      fun hp => absurd (hresolved.symm.trans hp) Bool.false_ne_true, fun _ => hfalse, nofun⟩
  | found hmain hfound =>
    refine resolving_of_same hresolving rfl rfl rfl id id (fun _ => ?_) fun _ => hfound
    rw [hmain]
    rfl
  | waitMore hmain =>
    obtain ⟨hfalse, _, hresolved⟩ := hinit hmain rfl
    exact ⟨fun h => absurd (hfalse.symm.trans h) Bool.false_ne_true, fun _ => hfalse,
      fun hp => absurd (hresolved.symm.trans hp) Bool.false_ne_true, fun _ => hfalse,
      fun heq => absurd (hmain.symm.trans heq) nofun⟩
  | registered hmain =>
    obtain ⟨_, hin, _⟩ := hinit hmain rfl
    have hlast := Hwsim.lastRegistered_register c.wifi.hwsim
    exact ⟨fun _ => ⟨hresolving.found hmain, hlast⟩,
      fun hp => absurd (hin.symm.trans hp) Bool.false_ne_true,
      fun _ => hresolving.found hmain, nofun, nofun⟩
  | registerFailed hmain =>
    obtain ⟨hfalse, _, _⟩ := hinit hmain rfl
    exact ⟨fun h => absurd (hfalse.symm.trans h) Bool.false_ne_true, fun _ => hfalse,
      fun _ => hresolving.found hmain, nofun, nofun⟩
  | initialized _ => exact resolving_late hresolving rfl rfl rfl id id rfl
  | monitored _ => exact resolving_late hresolving rfl rfl rfl id id rfl
  | attempted _ _ =>
    split
    · exact resolving_late hresolving rfl rfl rfl id id rfl
    · exact resolving_late hresolving rfl rfl rfl id id rfl
  | retry _ => exact resolving_late hresolving rfl rfl rfl id id rfl
  | announced _ => exact resolving_late hresolving rfl rfl rfl id id rfl
  | startTask hmain =>
    rename_i t rest
    have hpoint := startTask_point c t .monitorloop
    refine resolving_late hresolving rfl rfl rfl ?_ ?_ rfl
    · intro hp
      simp only [goMain, hpoint] at hp
      split at hp
      · cases hp
      · exact hp
    · intro hp
      simp only [goMain, hpoint] at hp
      split at hp
      · cases hp
      · exact hp
  | started _ => exact resolving_late hresolving rfl rfl rfl id id rfl
  | returned _ => exact resolving_late hresolving rfl rfl rfl id id rfl

theorem step_resolving {l : Label} (hfinds : FindsDriver c l) (h : c.step libnl l = some c') :
    Resolving c' := by
  cases step_cases h with
  | main h => exact h.resolving hphased hresolving
  | thread h => exact h.resolving hphased hresolving hfinds
  | stop h =>
    have hframe := h.frame
    have hsame : c'.wifi.hwsim = c.wifi.hwsim := hframe.hwsim
    have hpoint := hframe.points .monitorloop
    apply resolving_of_same hresolving (by rw [hsame]) (by rw [hsame]) (by rw [hsame])
    · rw [hpoint]
      exact id
    · rw [hpoint]
      exact id
    · rw [hframe.main]
      exact id
    · rw [hframe.main]
      exact hresolving.found
  | driver => exact resolving_of_same hresolving rfl rfl rfl id id id hresolving.found
  | interfaces => exact resolving_of_same hresolving rfl rfl rfl id id id hresolving.found

end Thread

/-- Without the driver `init()` goes on just the same, once the client is no longer
being initialized: when the message is sent, the client is initialized with the
negative number it got instead of a family. -/
theorem registers_absent (hpoint : (c.threads .monitorloop).point = .initNetlink)
    (hinit : c.wifi.beingInitialized = false) (habsent : c.driver < 0) :
    ∃ c', Lts.run (step libnl) c initAgain = some c' ∧ ¬ Registered c' := by
  have hfamily : ¬ 0 ≤ c.driver := Int.not_le.mpr habsent
  refine ⟨((((c.resolve.goto .monitorloop .waitDriver).goto .monitorloop
    .sendRegisterMsg).withHwsim (c.resolve.wifi.hwsim.sendRegisterMsg true)).initialized
      true).goto .monitorloop .interruptionPoint, ?_, fun h => hfamily (h rfl).1⟩
  simp [Lts.run, initAgain, step, stepThread, loop, monitorloop, hpoint, goto, resolve, withHwsim,
    initialized, hfamily, hinit]

/-- In a run in which the driver is there whenever the monitor asks for its family
within `init()`, the client is initialized only with the family it registered with. -/
theorem stays_registered (libnl : Libnl) (heap : Nat → UInt8) (driver : Int)
    (labels : List Label)
    (h : Lts.Steps (step libnl) FindsDriver (init heap driver) labels) :
    Lts.States (step libnl) Registered (init heap driver) labels := by
  have hstates : Lts.States (step libnl) (fun c => Phased c ∧ Resolving c) (init heap driver)
      labels := by
    apply Lts.states_of_steps _ ⟨init_phased heap driver, init_resolving heap driver⟩ h
    intro c l c' hc hfinds hstep
    exact ⟨step_phased hc.1 hstep, step_resolving hc.1 hc.2 hfinds hstep⟩
  exact hstates.mono fun c hc => hc.2.registered

/-- The driver is loaded again, with another family, before `init()` asks for it. -/
theorem stays_registered_reload :
    Lts.States (step Libnl.walk) Registered (init (fun _ => 0) 30)
      (calmStart ⟨5, [], []⟩ ++ findsUnloaded ++ .driver 31 :: initAgain) := by
  apply stays_registered
  apply Lts.steps_of_stepsCheck (q := fun c l =>
    match l with
    | .thread .monitorloop (.result _) =>
      decide ((c.threads .monitorloop).point = .initNetlink → 0 ≤ c.driver)
    | _ => true)
  · intro c l hcheck
    unfold FindsDriver
    split
    · exact fun hpoint _ => of_decide_eq_true hcheck hpoint
    · trivial
  · decide +kernel

/-- The driver is still unloaded when `init()` asks for it: the client registers with
the family -1. -/
theorem stays_registered_fails :
    ¬ Lts.States (step Libnl.walk) Registered (init (fun _ => 0) 30)
      (calmStart ⟨5, [], []⟩ ++ findsUnloaded ++ initAgain) := by
  intro h
  have hrun : (Lts.run (step Libnl.walk) (init (fun _ => 0) 30)
      (calmStart ⟨5, [], []⟩ ++ findsUnloaded ++ initAgain)).map
        (fun c => (c.wifi.hwsim.initialized, c.wifi.hwsim.familyId)) = some (true, -1) := by
    decide +kernel
  obtain ⟨c, hc, heq⟩ := Option.map_eq_some_iff.mp hrun
  obtain ⟨hinit, hfamily⟩ := Prod.mk.inj heq
  have hpos := ((h.last hc) hinit).1
  omega

end Client

end Vwifi
