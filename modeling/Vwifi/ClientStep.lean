import Vwifi.Client
import Vwifi.KernelWifiSpec

/-!
# What a step of the client can do

`step_cases` is the only place where the step functions of the tasks, of `start`
and of `stop` are unfolded.
-/

namespace Vwifi

set_option autoImplicit false

namespace Client

variable {libnl : Libnl} {c c' : Client}

inductive ThreadCases (libnl : Libnl) (c : Client) : Task → Answer → Client → Prop where
  | interrupted {t : Task} (hpoint : (c.threads t).point = .interruptionPoint)
      (h : c.isInterrupted t = true) : ThreadCases libnl c t .proceed (c.dead.goto t .ended)
  | enter {t : Task} (hpoint : (c.threads t).point = .interruptionPoint) :
      ThreadCases libnl c t .proceed (c.goto t .body)
  | move {t : Task} {p : Point}
      (hpoint : (c.threads t).point = .body ∨ (c.threads t).point = .wait)
      (hp : p = .interruptionPoint ∨ p = .wait) : ThreadCases libnl c t .proceed (c.goto t p)
  | message {msg : NlMessage} {m : Unwritten} {oks : List Bool} {s : CKernelWifi}
      (hpoint : (c.threads .hwsimloop).point = .wait)
      (h : c.wifi.processMessages libnl msg m.attrs m.around oks = some s) :
      ThreadCases libnl c .hwsimloop (.message msg m oks) { c with wifi := s }
  | selected {r : CSelect.Selection} {m : Unwritten} {oks : List Bool} {s : CKernelWifi}
      (hpoint : (c.threads .serverloop).point = .wait)
      (h : c.wifi.recvFromServer libnl r m oks = some s) :
      ThreadCases libnl c .serverloop (.selected r m oks)
        ({ c with wifi := s }.goto .serverloop .interruptionPoint)
  | unloaded (hpoint : (c.threads .monitorloop).point = .body) (h : c.driver < 0) :
      ThreadCases libnl c .monitorloop .proceed
        ((c.initialized false).goto .monitorloop .initNetlink)
  | initFailed (hpoint : (c.threads .monitorloop).point = .initNetlink) :
      ThreadCases libnl c .monitorloop (.result false) (c.goto .monitorloop .ended)
  | resolved (hpoint : (c.threads .monitorloop).point = .initNetlink) :
      ThreadCases libnl c .monitorloop (.result true) (c.resolve.goto .monitorloop .waitDriver)
  | leaveWait (hpoint : (c.threads .monitorloop).point = .waitDriver)
      (h : 0 ≤ c.wifi.hwsim.familyId ∨ c.wifi.beingInitialized = false) :
      ThreadCases libnl c .monitorloop .proceed (c.goto .monitorloop .sendRegisterMsg)
  | waitInterrupted (hpoint : (c.threads .monitorloop).point = .waitDriver)
      (h : c.wifi.beingInitialized = true) :
      ThreadCases libnl c .monitorloop .proceed (c.dead.goto .monitorloop .sendRegisterMsg)
  | waitMore (hpoint : (c.threads .monitorloop).point = .waitDriver)
      (h : c.wifi.beingInitialized = true) :
      ThreadCases libnl c .monitorloop .proceed c.resolve
  | registered (hpoint : (c.threads .monitorloop).point = .sendRegisterMsg) :
      ThreadCases libnl c .monitorloop (.result true)
        (((c.withHwsim (c.wifi.hwsim.sendRegisterMsg true)).initialized true).goto .monitorloop
          .interruptionPoint)
  | registerFailed (hpoint : (c.threads .monitorloop).point = .sendRegisterMsg) :
      ThreadCases libnl c .monitorloop (.result false)
        ((c.withHwsim (c.wifi.hwsim.sendRegisterMsg false)).goto .monitorloop .ended)
  | closed (hpoint : (c.threads .connectionToServerLoop).point = .body)
      (h : c.wifi.uplink.connectedToServer = false) :
      ThreadCases libnl c .connectionToServerLoop .proceed
        ((c.withUplink c.wifi.uplink.close).goto .connectionToServerLoop .connect)
  | attempted {a : Attempt} (hpoint : (c.threads .connectionToServerLoop).point = .connect)
      (h : c.offers a = true) :
      ThreadCases libnl c .connectionToServerLoop (.attempt a)
        ((c.withUplink (c.wifi.uplink.connect a).2).goto .connectionToServerLoop
          (if (c.wifi.uplink.connect a).1 then .announce else .interruptionPoint))
  | announced (hpoint : (c.threads .connectionToServerLoop).point = .announce) :
      ThreadCases libnl c .connectionToServerLoop .proceed
        ((c.connectedToServer true).goto .connectionToServerLoop .interruptionPoint)

inductive MainCases (c : Client) : Answer → Client → Prop where
  | created (hmain : c.main = .created) :
      MainCases c .proceed ((c.beingInitialized true).goMain
        (if c.wifi.hwsim.initialized then .initialized else .initNetlinkFirst))
  | resolved (hmain : c.main = .initNetlinkFirst) :
      MainCases c (.result true) (c.resolve.goMain .waitDriver)
  | found (hmain : c.main = .waitDriver) (h : 0 ≤ c.wifi.hwsim.familyId) :
      MainCases c .proceed (c.goMain .sendRegisterMsg)
  | waitMore (hmain : c.main = .waitDriver) : MainCases c .proceed c.resolve
  | registered (hmain : c.main = .sendRegisterMsg) :
      MainCases c (.result true)
        (((c.withHwsim (c.wifi.hwsim.sendRegisterMsg true)).initialized true).goMain .initialized)
  | registerFailed (hmain : c.main = .sendRegisterMsg) :
      MainCases c (.result false)
        ((c.withHwsim (c.wifi.hwsim.sendRegisterMsg false)).goMain .returned)
  | initialized (hmain : c.main = .initialized) :
      MainCases c .proceed ((c.beingInitialized false).goMain .monitorWireless)
  | monitored (hmain : c.main = .monitorWireless) :
      MainCases c (.result true) ((c.beingStarted true).goMain .connect)
  | attempted {a : Attempt} (hmain : c.main = .connect) (h : c.offers a = true) :
      MainCases c (.attempt a) ((c.withUplink (c.wifi.uplink.connect a).2).goMain
        (if (c.wifi.uplink.connect a).1 then .announce else .retry))
  | retry (hmain : c.main = .retry) : MainCases c .proceed (c.goMain .connect)
  | announced (hmain : c.main = .announce) :
      MainCases c .proceed ((c.connectedToServer true).goMain (.startTasks Task.all))
  | startTask {t : Task} {rest : List Task} (hmain : c.main = .startTasks (t :: rest)) :
      MainCases c .proceed ((c.startTask t).goMain (.startTasks rest))
  | started (hmain : c.main = .startTasks []) :
      MainCases c .proceed ((c.beingStarted false).goMain .join)
  | returned {a : Answer} (hmain : c.main ≠ .returned) : MainCases c a (c.goMain .returned)

inductive StopCases (c : Client) : Client → Prop where
  | initializing (h : c.wifi.beingInitialized = true) : StopCases c (c.beingInitialized false)
  | starting (h : c.wifi.beingStarted = true) : StopCases c (c.beingStarted false)
  | close (hstop : c.stopping = .idle) (h : c.wifi.uplink.connectedToServer = true)
      (hinit : c.wifi.beingInitialized = false) (hstart : c.wifi.beingStarted = false) :
      StopCases c { c.withUplink c.wifi.uplink.close with stopping := .interrupt interruptOrder }
  | interrupt {t : Task} {rest : List Task} (hstop : c.stopping = .interrupt (t :: rest)) :
      StopCases c { c.interrupt t with stopping := .interrupt rest }
  | unconnected (hstop : c.stopping = .idle) (h : c.wifi.uplink.connectedToServer = false) :
      StopCases c { c with stopping := .interrupt interruptOrder }
  | interrupted (hstop : c.stopping = .interrupt []) : StopCases c { c with stopping := .wait }
  | done (hstop : c.stopping = .wait) (h : c.numberThread = 0) :
      StopCases c { c with stopping := .idle }

inductive StepCases (libnl : Libnl) (c : Client) : Label → Client → Prop where
  | main {a : Answer} {c' : Client} (h : MainCases c a c') : StepCases libnl c (.main a) c'
  | thread {t : Task} {a : Answer} {c' : Client} (h : ThreadCases libnl c t a c') :
      StepCases libnl c (.thread t a) c'
  | stop {c' : Client} (h : StopCases c c') : StepCases libnl c .stop c'
  | driver {id : Int} : StepCases libnl c (.driver id) { c with driver := id }
  | interfaces {e : Interfaces.Event} :
      StepCases libnl c (.interfaces e)
        { c with wifi := { c.wifi with interfaces := c.wifi.interfaces.handle e } }

/-! ## The loops -/

theorem hwsimloop_cases {p : Point} {a : Answer} (hpoint : (c.threads .hwsimloop).point = p)
    (h : c.hwsimloop libnl p a = some c') : ThreadCases libnl c .hwsimloop a c' := by
  unfold hwsimloop at h
  split at h
  · cases h
    apply ThreadCases.move (Or.inl hpoint)
    split
    · exact Or.inr rfl
    · exact Or.inl rfl
  · obtain ⟨s, hs, rfl⟩ := Option.map_eq_some_iff.mp h
    exact .message hpoint hs
  · cases h
    exact .move (Or.inr hpoint) (Or.inl rfl)
  · cases h

theorem serverloop_cases {p : Point} {a : Answer} (hpoint : (c.threads .serverloop).point = p)
    (h : c.serverloop libnl p a = some c') : ThreadCases libnl c .serverloop a c' := by
  unfold serverloop at h
  split at h
  · cases h
    apply ThreadCases.move (Or.inl hpoint)
    split
    · exact Or.inr rfl
    · exact Or.inl rfl
  · obtain ⟨s, hs, rfl⟩ := Option.map_eq_some_iff.mp h
    exact .selected hpoint hs
  · cases h

theorem monitorloop_cases {p : Point} {a : Answer} (hpoint : (c.threads .monitorloop).point = p)
    (h : c.monitorloop p a = some c') : ThreadCases libnl c .monitorloop a c' := by
  unfold monitorloop at h
  split at h
  · split at h
    · rename_i habsent
      cases h
      exact .unloaded hpoint habsent
    · cases h
      exact .move (Or.inl hpoint) (Or.inl rfl)
  · rename_i ok
    cases ok
    · cases h
      exact .initFailed hpoint
    · cases h
      exact .resolved hpoint
  · split at h
    · rename_i hfound
      cases h
      exact .leaveWait hpoint (Or.inl hfound)
    · split at h
      · rename_i hinit
        cases h
        exact .leaveWait hpoint (Or.inr (Bool.not_eq_true _ ▸ hinit))
      · rename_i hinit
        rw [Decidable.not_not] at hinit
        split at h
        · cases h
          exact .waitInterrupted hpoint hinit
        · cases h
          exact .waitMore hpoint hinit
  · rename_i ok
    cases ok
    · cases h
      exact .registerFailed hpoint
    · cases h
      exact .registered hpoint
  · cases h

theorem winterfaceUpdateLoop_cases {p : Point} {a : Answer}
    (hpoint : (c.threads .winterfaceUpdateLoop).point = p)
    (h : c.winterfaceUpdateLoop p a = some c') :
    ThreadCases libnl c .winterfaceUpdateLoop a c' := by
  unfold winterfaceUpdateLoop at h
  split at h
  · cases h
    exact .move (Or.inl hpoint) (Or.inl rfl)
  · cases h

theorem connectionToServerLoop_cases {p : Point} {a : Answer}
    (hpoint : (c.threads .connectionToServerLoop).point = p)
    (h : c.connectionToServerLoop p a = some c') :
    ThreadCases libnl c .connectionToServerLoop a c' := by
  unfold connectionToServerLoop at h
  split at h
  · split at h
    · cases h
      exact .move (Or.inl hpoint) (Or.inl rfl)
    · rename_i hlost
      cases h
      exact .closed hpoint (Bool.not_eq_true _ ▸ hlost)
  · split at h
    · rename_i hoffers
      cases h
      exact .attempted hpoint hoffers
    · cases h
  · cases h
    exact .announced hpoint
  · cases h

theorem loop_cases {t : Task} {p : Point} {a : Answer} (hpoint : (c.threads t).point = p)
    (h : c.loop libnl t p a = some c') : ThreadCases libnl c t a c' := by
  cases t with
  | hwsimloop => exact hwsimloop_cases hpoint h
  | serverloop => exact serverloop_cases hpoint h
  | monitorloop => exact monitorloop_cases hpoint h
  | winterfaceUpdateLoop => exact winterfaceUpdateLoop_cases hpoint h
  | connectionToServerLoop => exact connectionToServerLoop_cases hpoint h

theorem stepThread_cases {t : Task} {a : Answer} (h : c.stepThread libnl t a = some c') :
    ThreadCases libnl c t a c' := by
  unfold stepThread at h
  split at h
  · rename_i hpoint
    split at h
    · rename_i hflag
      cases h
      exact .interrupted hpoint hflag
    · cases h
      exact .enter hpoint
  · exact loop_cases rfl h

/-! ## `start` and `stop` -/

theorem stepMain_cases {a : Answer} (h : c.stepMain a = some c') : MainCases c a c' := by
  have hreturned {p : MainPoint} (hmain : c.main = p) (hp : p ≠ .returned) :
      c.main ≠ .returned := hmain ▸ hp
  unfold stepMain at h
  split at h <;> rename_i hmain
  · cases h
    exact .created hmain
  · rename_i ok
    cases ok
    · cases h
      exact .returned (hreturned hmain nofun)
    · cases h
      exact .resolved hmain
  · split at h
    · rename_i hfound
      cases h
      exact .found hmain hfound
    · split at h
      · cases h
        exact .returned (hreturned hmain nofun)
      · cases h
        exact .waitMore hmain
  · rename_i ok
    cases ok
    · cases h
      exact .registerFailed hmain
    · cases h
      exact .registered hmain
  · cases h
    exact .initialized hmain
  · rename_i ok
    cases ok
    · cases h
      exact .returned (hreturned hmain nofun)
    · cases h
      exact .monitored hmain
  · split at h
    · rename_i hoffers
      cases h
      exact .attempted hmain hoffers
    · cases h
  · split at h
    · cases h
      exact .returned (hreturned hmain nofun)
    · cases h
      exact .retry hmain
  · cases h
    exact .announced hmain
  · cases h
    exact .startTask hmain
  · cases h
    exact .started hmain
  · split at h
    · cases h
      exact .returned (hreturned hmain nofun)
    · cases h
  · cases h

theorem stepStop_cases (h : c.stepStop = some c') : StopCases c c' := by
  unfold stepStop at h
  split at h <;> rename_i hstop
  · split at h
    · rename_i hinit
      cases h
      exact .initializing hinit
    · split at h
      · rename_i hstart
        cases h
        exact .starting hstart
      · rename_i hinit hstart
        dsimp only at h
        split at h
        · rename_i hconnected
          cases h
          exact .close hstop hconnected (Bool.not_eq_true _ ▸ hinit) (Bool.not_eq_true _ ▸ hstart)
        · rename_i hconnected
          cases h
          exact .unconnected hstop (Bool.not_eq_true _ ▸ hconnected)
  · cases h
    exact .interrupt hstop
  · cases h
    exact .interrupted hstop
  · split at h
    · rename_i hzero
      cases h
      exact .done hstop hzero
    · cases h

theorem step_cases {l : Label} (h : c.step libnl l = some c') : StepCases libnl c l c' := by
  cases l with
  | main a => exact .main (stepMain_cases h)
  | thread t a => exact .thread (stepThread_cases h)
  | stop => exact .stop (stepStop_cases h)
  | driver id =>
    cases h
    exact .driver
  | interfaces e =>
    cases h
    exact .interfaces

end Client

end Vwifi
