import Vwifi.Lib.Broadcast
import Vwifi.FramePath
import Vwifi.WatchedNode

/-!
# The frames of a whole connection

While a client keeps its connection, its two loops and the rest of its threads take
their steps in any order. What the server sends is taken from the stream frame by
frame, and what the driver hands over is sent frame by frame.
-/

namespace Vwifi

set_option autoImplicit false

/-! ## What the handlers do to the two streams -/

namespace Uplink

variable {u : Uplink}

/-- The kernel of the process and the descriptor are all that the streams depend on. -/
theorem supply_congr {v : Uplink} (hmaster : v.master = u.master)
    (hinbox : v.kernel.inbox = u.kernel.inbox) : v.supply = u.supply := by
  rw [supply, supply, hmaster]
  cases u.master with
  | none => rfl
  | some d =>
    dsimp only
    rw [Kernel.supply, Kernel.supply, hinbox]

theorem sendSignal_inbox (u : Uplink) (power : TPower) (data : List UInt8) :
    (u.sendSignal power data).2.kernel.inbox = u.kernel.inbox := by
  unfold sendSignal
  cases u.master with
  | none => rfl
  | some d =>
    obtain ⟨_, _, hwrites⟩ := CWifi.sendSignalWithSocket_cases u.kernel d power data
    exact hwrites.inbox

theorem recvSignal_sent (u : Uplink) (power : TPower) (d : TDescriptor) :
    sentOn d (u.recvSignal power).kernel.log = sentOn d u.kernel.log := by
  unfold recvSignal
  cases u.master with
  | none => rfl
  | some master =>
    obtain ⟨acts, hlog, hacts⟩ :=
      (CWifi.recvSignal_readsFrom u.kernel master power u.buffer).reads
    dsimp only
    rw [hlog]
    exact sentOn_reads d _ hacts

theorem forward_supply (u : Uplink) (power : TPower) (data : List UInt8) :
    (u.forward power data).supply = u.supply := by
  apply supply_congr (u.forward_transfers power data).master
  have hinbox := u.sendSignal_inbox power data
  unfold forward
  dsimp only
  split
  · exact hinbox
  · exact hinbox

end Uplink

namespace CKernelWifi

variable {libnl : Libnl} {s s' : CKernelWifi}

/-- Nothing is received while a message of the driver is handled. -/
theorem processMessages_supply {msg : NlMessage} {old : AttrTable} {around : Memory}
    {oks : List Bool} (h : s.processMessages libnl msg old around oks = some s') :
    s'.uplink.supply = s.uplink.supply := by
  by_cases hpasses : Passes libnl s msg old around
  · obtain ⟨_, _, _, _, _, _, _, _, rfl⟩ := (processMessages_some_iff hpasses).mp h
    exact Uplink.forward_supply _ _ _
  · rw [processMessages_idle hpasses] at h
    cases h
    rfl

/-- Without action on the first node nothing is received. -/
theorem recvFromServer_idle {sel : CSelect.Selection} {m : Unwritten} {oks : List Bool}
    (h : s.recvFromServer libnl sel m oks = some s') (hidle : ¬ s.uplink.Reads sel) :
    s'.uplink.master = s.uplink.master ∧ s'.uplink.kernel = s.uplink.kernel := by
  unfold recvFromServer at h
  dsimp only at h
  split at h
  · cases h
    exact ⟨rfl, rfl⟩
  · rename_i hret
    split at h
    · cases h
    · cases h
      exact ⟨rfl, rfl⟩
    · rename_i haction
      exact absurd ⟨hret, haction⟩ hidle

/-- Nothing is sent while a signal is received. -/
theorem recvFromServer_sent {sel : CSelect.Selection} {m : Unwritten} {oks : List Bool}
    (h : s.recvFromServer libnl sel m oks = some s') (d : TDescriptor) :
    sentOn d s'.uplink.kernel.log = sentOn d s.uplink.kernel.log := by
  by_cases hreads : s.uplink.Reads sel
  · rw [recvFromServer_reads hreads] at h
    have hreceived := s.uplink.recvSignal_sent m.power d
    generalize s.uplink.recvSignal m.power = r at h hreceived
    have hkernel (u : Uplink) : (u.received r).kernel = r.kernel := by
      unfold Uplink.received
      split <;> rfl
    unfold handleSignal at h
    dsimp only at h
    split at h
    · cases h
      dsimp only
      rw [hkernel, hreceived]
    · cases h
    · cases h
      dsimp only
      rw [hkernel, ← hreceived]
      apply sentOn_reads
      intro a ha
      rw [List.mem_singleton.mp ha]
      rfl
  · rw [(recvFromServer_idle h hreads).2]

end CKernelWifi

/-! ## The steps that use the connection -/

namespace Client

variable {libnl : Libnl} {c c' : Client}

/-- The client counts on the connection it has. -/
def Connected (c : Client) : Prop :=
  c.wifi.uplink.connectedToServer = true ∧ c.wifi.uplink.master.isSome = true

instance (c : Client) : Decidable (Connected c) := inferInstanceAs (Decidable (_ ∧ _))

/-- Something is received from the driver or from the server. -/
def Label.isTraffic : Label → Bool
  | .thread .hwsimloop (.message _ _ _) => true
  | .thread .serverloop (.selected _ _ _) => true
  | _ => false

/-- What a step does to a connection that it keeps. -/
inductive Traffic (libnl : Libnl) (c c' : Client) : Label → Prop where
  | message {msg : NlMessage} {m : Unwritten} {oks : List Bool}
      (h : c.wifi.processMessages libnl msg m.attrs m.around oks = some c'.wifi) :
      Traffic libnl c c' (.thread .hwsimloop (.message msg m oks))
  | selected {sel : CSelect.Selection} {m : Unwritten} {oks : List Bool}
      (h : c.wifi.recvFromServer libnl sel m oks = some c'.wifi) :
      Traffic libnl c c' (.thread .serverloop (.selected sel m oks))
  | quiet {l : Label} (hl : l.isTraffic = false)
      (master : c'.wifi.uplink.master = c.wifi.uplink.master)
      (kernel : c'.wifi.uplink.kernel = c.wifi.uplink.kernel) : Traffic libnl c c' l

theorem ThreadCases.traffic {t : Task} {a : Answer} (h : ThreadCases libnl c t a c')
    (hlinked : Linked c) (hc : Connected c) : Traffic libnl c c' (.thread t a) := by
  cases h with
  | message _ h => exact .message h
  | selected _ h => exact .selected h
  | closed _ hlost =>
    rw [hc.1] at hlost
    cases hlost
  | attempted hpoint _ =>
    have hlost := hlinked.connecting hpoint
    rw [hc.1] at hlost
    cases hlost
  | interrupted | enter | move =>
    refine .quiet ?_ rfl rfl
    cases t <;> rfl
  | _ => exact .quiet rfl rfl rfl

theorem MainCases.traffic {a : Answer} (h : MainCases c a c') (hlinked : Linked c)
    (hc : Connected c) : Traffic libnl c c' (.main a) := by
  cases h with
  | attempted hmain _ =>
    have hlost := (hlinked.beforeConnect (by rw [hmain]; rfl)).2
    rw [hc.1] at hlost
    cases hlost
  | _ => exact .quiet rfl rfl rfl

theorem StopCases.traffic (h : StopCases c c') (hc' : Connected c') :
    Traffic libnl c c' .stop := by
  cases h with
  | close _ _ _ _ =>
    have hsome := hc'.2
    rw [show (c.withUplink c.wifi.uplink.close).wifi.uplink.master = none from
      (Uplink.close_scheduler _).2.2] at hsome
    cases hsome
  | _ => exact .quiet rfl rfl rfl

/-- Among the steps that keep the connection only the handlers use it. -/
theorem step_traffic {l : Label} (h : c.step libnl l = some c') (hlinked : Linked c)
    (hc : Connected c) (hc' : Connected c') : Traffic libnl c c' l := by
  cases step_cases h with
  | main h => exact h.traffic hlinked hc
  | thread h => exact h.traffic hlinked hc
  | stop h => exact h.traffic hc'
  | driver => exact .quiet rfl rfl rfl
  | interfaces => exact .quiet rfl rfl rfl

theorem reached_linked {heap : Nat → UInt8} {driver : Int} {before : List Label}
    (h : Lts.run (step libnl) (init heap driver) before = some c) : Phased c ∧ Linked c := by
  apply Lts.run_invariant (I := fun c => Phased c ∧ Linked c) _ _ h
  · exact fun c l c' hc h => ⟨step_phased hc.1 h, step_linked hc.1 hc.2 h⟩
  · exact ⟨init_phased heap driver, init_linked heap driver⟩

end Client

/-! ## What the server sends -/

/-- A signal with a frame in it. -/
structure Carried (libnl : Libnl) where
  level : TPower
  message : List UInt8
  data : List UInt8
  freq : TFrequency
  carries : CarriesFrame libnl message data freq

def Carried.bytes {libnl : Libnl} (x : Carried libnl) : List UInt8 :=
  x.level.toUInt8 :: x.message

/-- What a client makes of one signal: the family and the radios it knows, what libnl
answers, and its calls to the driver. -/
structure Injection where
  familyId : Int
  radios : List EtherAddr
  oks : List Bool
  calls : List HwsimCall

/-- The driver is loaded, and libnl sends what it is given. -/
def Injection.Accepted (i : Injection) : Prop := 0 ≤ i.familyId ∧ ∀ ok ∈ i.oks, ok = true

instance (i : Injection) : Decidable i.Accepted := inferInstanceAs (Decidable (_ ∧ _))

/-- The frame of the signal is injected into all radios, at its level. A call for a
family that is not known, or one that libnl fails, does not reach its radio. -/
def Carried.InjectedBy {libnl : Libnl} (x : Carried libnl) (i : Injection) : Prop :=
  i.calls = Hwsim.clones i.familyId x.data CKernelWifi.rateIdx x.level.toInt x.freq i.radios i.oks

/-- The frame of the signal reaches all radios, at its level. -/
def Carried.Reaches {libnl : Libnl} (x : Carried libnl) (i : Injection) : Prop :=
  i.calls = i.radios.map fun dst =>
    ⟨.clonedFrame dst x.data CKernelWifi.rateIdx x.level.toInt x.freq, true⟩

theorem Carried.InjectedBy.reaches {libnl : Libnl} {x : Carried libnl} {i : Injection}
    (h : x.InjectedBy i) (haccepted : i.Accepted) : x.Reaches i :=
  h.trans (Hwsim.clones_sent haccepted.1 i.radios haccepted.2)

theorem Carried.InjectedBy.unsent {libnl : Libnl} {x : Carried libnl} {i : Injection}
    (h : x.InjectedBy i) (hunloaded : i.familyId < 0) : ∀ call ∈ i.calls, call.sent = false := by
  rw [h]
  exact fun call hcall => Hwsim.clones_unsent hunloaded hcall

theorem forall₂_unsent {libnl : Libnl} {xs : List (Carried libnl)} {is : List Injection}
    (h : List.Forall₂ Carried.InjectedBy xs is) :
    ∀ i ∈ is, i.familyId < 0 → ∀ call ∈ i.calls, call.sent = false := by
  induction h with
  | nil => exact fun i hi => absurd hi List.not_mem_nil
  | cons hhead _ ih => exact List.forall_mem_cons.mpr ⟨hhead.unsent, ih⟩

theorem forall₂_reaches {libnl : Libnl} {xs : List (Carried libnl)} {is : List Injection}
    (h : List.Forall₂ Carried.InjectedBy xs is) (haccepted : ∀ i ∈ is, i.Accepted) :
    List.Forall₂ Carried.Reaches xs is := by
  induction h with
  | nil => exact .nil
  | cons hhead _ ih =>
    exact .cons (hhead.reaches (haccepted _ List.mem_cons_self))
      (ih fun i hi => haccepted i (List.mem_cons_of_mem _ hi))

namespace Client

variable {libnl : Libnl} {c c' : Client}

/-- The signal that is received in a step. -/
def injections (libnl : Libnl) (c : Client) : Label → List Injection
  | .thread .serverloop (.selected sel m oks) =>
    match c.wifi.recvFromServer libnl sel m oks with
    | some s =>
      if c.wifi.uplink.Reads sel then
        [⟨c.wifi.hwsim.familyId, c.wifi.radios, oks, c.wifi.injected s⟩]
      else []
    | none => []
  | _ => []

theorem injections_quiet {l : Label} (h : l.isTraffic = false) : injections libnl c l = [] := by
  unfold injections
  split
  · cases h
  · rfl

/-- To receive from a stream that has ended costs the connection. -/
theorem recvFromServer_ended {s s' : CKernelWifi} {sel : CSelect.Selection} {m : Unwritten}
    {oks : List Bool} (h : s.recvFromServer libnl sel m oks = some s') (hreads : s.uplink.Reads sel)
    (hended : s.uplink.supply = []) : s'.uplink.connectedToServer = false := by
  rcases CKernelWifi.recvFromServer_cases h with ⟨hidle, _⟩ | ⟨_, _, hlost⟩
  · exact absurd hreads hidle
  · apply hlost.mpr
    left
    rcases s.uplink.recvSignal_cases m.power with ⟨_, hfailed⟩ | ⟨d, hsupply, hcases⟩
    · exact hfailed
    · cases hcases with
      | failed hfailed _ => exact hfailed
      | stored b arrived supply _ _ _ _ _ _ _ =>
        rw [← hsupply, hended] at supply
        cases supply

/-- A step takes no signal from the stream or the first one, whose frame it injects. -/
theorem step_injections {l : Label} (h : c.step libnl l = some c') (hlinked : Linked c)
    (hc : Connected c) (hc' : Connected c') {signals : List (Carried libnl)}
    (hsupply : c.wifi.uplink.supply = signals.flatMap Carried.bytes) :
    ∃ taken left, signals = taken ++ left ∧
      List.Forall₂ Carried.InjectedBy taken (injections libnl c l) ∧
      c'.wifi.uplink.supply = left.flatMap Carried.bytes := by
  cases step_traffic h hlinked hc hc' with
  | message hhandled =>
    rw [← CKernelWifi.processMessages_supply hhandled] at hsupply
    exact ⟨[], signals, rfl, .nil, hsupply⟩
  | @selected sel m oks hhandled =>
    by_cases hreads : c.wifi.uplink.Reads sel
    · cases signals with
      | nil =>
        have hlost := recvFromServer_ended hhandled hreads hsupply
        rw [hc'.1] at hlost
        cases hlost
      | cons x left =>
        rw [List.flatMap_cons] at hsupply
        obtain ⟨s, hs, hinjected, hleft, _⟩ :=
          CKernelWifi.recvFromServer_carries x.carries hsupply hreads m oks
        cases hs.symm.trans hhandled
        refine ⟨[x], left, rfl, ?_, hleft⟩
        have hone : injections libnl c (.thread .serverloop (.selected sel m oks)) =
            [⟨c.wifi.hwsim.familyId, c.wifi.radios, oks, c.wifi.injected c'.wifi⟩] := by
          simp only [injections, hhandled, if_pos hreads]
        rw [hone]
        exact .cons hinjected .nil
    · obtain ⟨hmaster, hkernel⟩ := CKernelWifi.recvFromServer_idle hhandled hreads
      have hnone : injections libnl c (.thread .serverloop (.selected sel m oks)) = [] := by
        simp only [injections, hhandled, if_neg hreads]
      rw [hnone]
      refine ⟨[], signals, rfl, .nil, ?_⟩
      rw [← hsupply]
      exact Uplink.supply_congr hmaster (by rw [hkernel])
  | quiet hl hmaster hkernel =>
    rw [injections_quiet hl]
    refine ⟨[], signals, rfl, .nil, ?_⟩
    rw [← hsupply]
    exact Uplink.supply_congr hmaster (by rw [hkernel])

theorem run_injections {ls : List Label} (hinv : Phased c ∧ Linked c)
    (hrun : Lts.run (step libnl) c ls = some c')
    (hlasts : Lts.States (step libnl) Connected c ls) {signals : List (Carried libnl)}
    (hsupply : c.wifi.uplink.supply = signals.flatMap Carried.bytes) :
    ∃ taken left, signals = taken ++ left ∧
      List.Forall₂ Carried.InjectedBy taken
        (Lts.outputs (step libnl) (injections libnl) c ls) ∧
      c'.wifi.uplink.supply = left.flatMap Carried.bytes := by
  induction ls generalizing c signals with
  | nil =>
    cases hrun
    exact ⟨[], signals, rfl, .nil, hsupply⟩
  | cons l ls ih =>
    cases hs : c.step libnl l with
    | none => simp [Lts.run, hs] at hrun
    | some c₁ =>
      rw [Lts.run_cons hs] at hrun
      have hrest := hlasts.2 c₁ hs
      obtain ⟨taken, left, rfl, htaken, hleft⟩ :=
        step_injections hs hinv.2 hlasts.1 hrest.head hsupply
      obtain ⟨taken', left', rfl, htaken', hleft'⟩ :=
        ih ⟨step_phased hinv.1 hs, step_linked hinv.1 hinv.2 hs⟩ hrun hrest hleft
      refine ⟨taken ++ taken', left', (List.append_assoc _ _ _).symm, ?_, hleft'⟩
      rw [Lts.outputs, hs]
      exact List.rel_append htaken htaken'

/-- Over any interleaving of the threads, as long as the connection lasts: of the frames
that are on their way a prefix has been taken, each of them once and in order, with
one call for each radio of the guest, at its level; the others are still on their way.
While the driver is loaded and libnl sends, every frame that is taken reaches all radios,
and without the driver none. -/
theorem frames_injected {heap : Nat → UInt8} {driver : Int} {before ls : List Label}
    (hreach : Lts.run (step libnl) (init heap driver) before = some c)
    (hrun : Lts.run (step libnl) c ls = some c')
    (hlasts : Lts.States (step libnl) Connected c ls) {signals : List (Carried libnl)}
    (hsupply : c.wifi.uplink.supply = signals.flatMap Carried.bytes) :
    ∃ taken left, signals = taken ++ left ∧
      List.Forall₂ Carried.InjectedBy taken
        (Lts.outputs (step libnl) (injections libnl) c ls) ∧
      ((∀ i ∈ Lts.outputs (step libnl) (injections libnl) c ls, i.Accepted) →
        List.Forall₂ Carried.Reaches taken
          (Lts.outputs (step libnl) (injections libnl) c ls)) ∧
      (∀ i ∈ Lts.outputs (step libnl) (injections libnl) c ls, i.familyId < 0 →
        ∀ call ∈ i.calls, call.sent = false) ∧
      c'.wifi.uplink.supply = left.flatMap Carried.bytes := by
  obtain ⟨taken, left, hsignals, htaken, hleft⟩ :=
    run_injections (reached_linked hreach) hrun hlasts hsupply
  exact ⟨taken, left, hsignals, htaken, forall₂_reaches htaken, forall₂_unsent htaken, hleft⟩

/-- A signal with a frame of twelve bytes. -/
def shortSignal : Carried Libnl.walk where
  level := -20
  message := shortFrame
  data := List.replicate 12 7
  freq := 0
  carries := by
    have hparsed : (Libnl.walk.genlmsgParse hwsimAttrMax shortFrame).map (fun table =>
        (table HwsimAttr.addrTransmitter.code, table HwsimAttr.frame.code,
          table HwsimAttr.freq.code)) = some (some 20, some 32, none) := by decide +kernel
    obtain ⟨table, htable, heq⟩ := Option.map_eq_some_iff.mp hparsed
    simp only [Prod.mk.injEq] at heq
    obtain ⟨hp, hq, hfreq⟩ := heq
    refine ⟨by decide +kernel, by decide +kernel, by decide +kernel, by decide +kernel, table, 20,
      32, htable, hp, hq, by decide +kernel, by rw [hfreq]; rfl, ?_⟩
    intro r hr
    rw [hfreq] at hr
    cases hr

/-- A guest with an interface, to which the signal is on its way. -/
def listens : List Label :=
  calmStart ⟨5, [shortSignal.bytes], []⟩ ++
    [.interfaces (.report (Interfaces.report3 ⟨[119, 108, 97, 110, 48], by decide⟩))]

theorem frames_injected_short : ∃ c c',
    Lts.run (step Libnl.walk) (init (fun _ => 0) 30) listens = some c ∧
      Lts.run (step Libnl.walk) c (waits ++ [selects]) = some c' ∧
      ∃ taken left, [shortSignal] = taken ++ left ∧
        (Lts.outputs (step Libnl.walk) (injections Libnl.walk) c (waits ++ [selects])).map
          (·.radios.length) = [1] ∧
        List.Forall₂ Carried.Reaches taken
          (Lts.outputs (step Libnl.walk) (injections Libnl.walk) c (waits ++ [selects])) ∧
        c'.wifi.uplink.supply = left.flatMap Carried.bytes := by
  have hrun : (Lts.run (step Libnl.walk) (init (fun _ => 0) 30) listens).map (fun c =>
      ((Lts.run (step Libnl.walk) c (waits ++ [selects])).isSome,
        Lts.statesCheck (step Libnl.walk) (fun c => decide (Connected c)) c (waits ++ [selects]),
        (Lts.outputs (step Libnl.walk) (injections Libnl.walk) c (waits ++ [selects])).map
          (·.radios.length),
        (Lts.outputs (step Libnl.walk) (injections Libnl.walk) c (waits ++ [selects])).all
          (decide ·.Accepted),
        c.wifi.uplink.supply)) =
      some (true, true, [1], true, [shortSignal].flatMap Carried.bytes) := by
    decide +kernel
  obtain ⟨c, hc, heq⟩ := Option.map_eq_some_iff.mp hrun
  simp only [Prod.mk.injEq, List.all_eq_true, decide_eq_true_eq] at heq
  obtain ⟨hsome, hstates, hradios, haccepted, hsupply⟩ := heq
  obtain ⟨c', hc'⟩ := Option.isSome_iff_exists.mp hsome
  have hlasts := Lts.states_of_statesCheck (fun _ h => of_decide_eq_true h) hstates
  obtain ⟨taken, left, hsignals, _, hreaches, _, hleft⟩ := frames_injected hc hc' hlasts hsupply
  exact ⟨c, c', hc, hc', taken, left, hsignals, hradios, hreaches haccepted, hleft⟩

end Client

/-! ## What the driver hands over -/

instance (libnl : Libnl) (s : CKernelWifi) (msg : NlMessage) (old : AttrTable)
    (around : Memory) : Decidable (CKernelWifi.Passes libnl s msg old around) :=
  decidable_of_iff (s.uplink.connectedToServer = true ∧
    ((Memory.ofBlock msg.bytes around).nlmsgType : Int) = s.hwsim.familyId ∧
    (Memory.ofBlock msg.bytes around).cmd = HwsimCmd.frame.code ∧
    (libnl.attrs (Memory.ofBlock msg.bytes around) old
      HwsimAttr.addrTransmitter.code).isSome = true)
    ⟨fun ⟨h₁, h₂, h₃, h₄⟩ => ⟨h₁, h₂, h₃, h₄⟩, fun ⟨h₁, h₂, h₃, h₄⟩ => ⟨h₁, h₂, h₃, h₄⟩⟩

/-- A message of the driver with the state it finds the client in. -/
structure Handing where
  wifi : CKernelWifi
  msg : NlMessage

/-- The signal carries the frame of the message, at the power of its sender. -/
def Carried.Sends {libnl : Libnl} (x : Carried libnl) (h : Handing) : Prop :=
  CarriesFrame libnl h.msg.bytes x.data x.freq ∧
    ∃ source : EtherAddr, source.octets = (x.data.drop 10).take ethAlen ∧
      x.level = h.wifi.transmitPower source

namespace Client

variable {libnl : Libnl} {c c' : Client}

/-- The message that is handed over in a step and passes the checks. -/
def handings (libnl : Libnl) (c : Client) : Label → List Handing
  | .thread .hwsimloop (.message msg m _) =>
    if CKernelWifi.Passes libnl c.wifi msg m.attrs m.around then [⟨c.wifi, msg⟩] else []
  | _ => []

/-- What the driver hands over are frames whose transmitter can be replaced. -/
def HandsFrames (libnl : Libnl) (c : Client) (l : Label) : Prop :=
  ∀ h ∈ handings libnl c l, (∃ data freq, CarriesFrame libnl h.msg.bytes data freq) ∧
    CKernelWifi.Replaceable libnl h.msg.bytes

theorem handings_quiet {l : Label} (h : l.isTraffic = false) : handings libnl c l = [] := by
  unfold handings
  split
  · cases h
  · rfl

/-- What a step sends is the frame that is handed over in it. -/
theorem step_handings {l : Label} (hseq : libnl.Sequential) (h : c.step libnl l = some c')
    (hlinked : Linked c) (hc : Connected c) (hc' : Connected c') (hframes : HandsFrames libnl c l)
    {d : TDescriptor} (hmaster : c.wifi.uplink.master = some d) :
    ∃ sent : List (Carried libnl), List.Forall₂ Carried.Sends sent (handings libnl c l) ∧
      sentOn d c'.wifi.uplink.kernel.log =
        sentOn d c.wifi.uplink.kernel.log ++ sent.flatMap Carried.bytes ∧
      c'.wifi.uplink.master = some d := by
  have hnothing (k : Kernel) (hk : sentOn d k.log = sentOn d c.wifi.uplink.kernel.log) :
      sentOn d k.log = sentOn d c.wifi.uplink.kernel.log ++
        ([] : List (Carried libnl)).flatMap Carried.bytes := by
    rw [hk, List.flatMap_nil, List.append_nil]
  cases step_traffic h hlinked hc hc' with
  | @message msg m oks hhandled =>
    have hmaster' := (CKernelWifi.processMessages_handles hhandled).uplink.master.trans hmaster
    by_cases hpasses : CKernelWifi.Passes libnl c.wifi msg m.attrs m.around
    · have hone : handings libnl c (.thread .hwsimloop (.message msg m oks)) =
          [⟨c.wifi, msg⟩] := if_pos hpasses
      rw [hone]
      obtain ⟨⟨data, freq, hcarries⟩, hreplaceable⟩ :=
        hframes ⟨c.wifi, msg⟩ (by rw [hone]; exact List.mem_singleton_self _)
      obtain ⟨s, power, hs, hpassesOn, hsends⟩ :=
        CKernelWifi.processMessages_passesOn hseq hpasses hcarries hreplaceable oks
      cases hs.symm.trans hhandled
      obtain ⟨e, message, hmasterAgain, hsent, _, hcarried⟩ := hsends hc'.1
      cases hmaster.symm.trans hmasterAgain
      refine ⟨[⟨power, message, data, freq, hcarried⟩],
        .cons ⟨hcarries, hpassesOn.source⟩ .nil, ?_, hmaster'⟩
      rw [hsent, List.flatMap_singleton]
      rfl
    · have hnone : handings libnl c (.thread .hwsimloop (.message msg m oks)) = [] :=
        if_neg hpasses
      rw [CKernelWifi.processMessages_idle hpasses] at hhandled
      rw [hnone]
      refine ⟨[], .nil, hnothing _ ?_, hmaster'⟩
      rw [← Option.some.inj hhandled]
  | selected hhandled =>
    have hmaster' := (CKernelWifi.recvFromServer_handles hhandled).uplink.master.trans hmaster
    exact ⟨[], .nil, hnothing _ (CKernelWifi.recvFromServer_sent hhandled d), hmaster'⟩
  | quiet hl hsame hkernel =>
    rw [handings_quiet hl]
    exact ⟨[], .nil, hnothing _ (by rw [hkernel]), hsame.trans hmaster⟩

theorem run_handings {ls : List Label} (hseq : libnl.Sequential) (hinv : Phased c ∧ Linked c)
    (hrun : Lts.run (step libnl) c ls = some c')
    (hlasts : Lts.States (step libnl) Connected c ls)
    (hframes : Lts.Steps (step libnl) (HandsFrames libnl) c ls) {d : TDescriptor}
    (hmaster : c.wifi.uplink.master = some d) :
    ∃ sent : List (Carried libnl),
      List.Forall₂ Carried.Sends sent (Lts.outputs (step libnl) (handings libnl) c ls) ∧
      sentOn d c'.wifi.uplink.kernel.log =
        sentOn d c.wifi.uplink.kernel.log ++ sent.flatMap Carried.bytes := by
  induction ls generalizing c with
  | nil =>
    cases hrun
    exact ⟨[], .nil, (List.append_nil _).symm⟩
  | cons l ls ih =>
    cases hs : c.step libnl l with
    | none => simp [Lts.run, hs] at hrun
    | some c₁ =>
      rw [Lts.run_cons hs] at hrun
      have hrest := hlasts.2 c₁ hs
      obtain ⟨hhands, hframes'⟩ := hframes c₁ hs
      obtain ⟨sent, hsent, hlog, hmaster'⟩ :=
        step_handings hseq hs hinv.2 hlasts.1 hrest.head hhands hmaster
      obtain ⟨sent', hsent', hlog'⟩ :=
        ih ⟨step_phased hinv.1 hs, step_linked hinv.1 hinv.2 hs⟩ hrun hrest hframes' hmaster'
      refine ⟨sent ++ sent', ?_, ?_⟩
      · rw [Lts.outputs, hs]
        exact List.rel_append hsent hsent'
      · rw [hlog', hlog, List.flatMap_append, List.append_assoc]

/-- Over any interleaving of the threads, as long as the connection lasts: what is sent
are the frames that are handed over, each of them once, in order and at the power of
its sender. -/
theorem frames_sent {heap : Nat → UInt8} {driver : Int} {before ls : List Label}
    (hseq : libnl.Sequential)
    (hreach : Lts.run (step libnl) (init heap driver) before = some c)
    (hrun : Lts.run (step libnl) c ls = some c')
    (hlasts : Lts.States (step libnl) Connected c ls)
    (hframes : Lts.Steps (step libnl) (HandsFrames libnl) c ls) {d : TDescriptor}
    (hmaster : c.wifi.uplink.master = some d) :
    ∃ sent : List (Carried libnl),
      List.Forall₂ Carried.Sends sent (Lts.outputs (step libnl) (handings libnl) c ls) ∧
      sentOn d c'.wifi.uplink.kernel.log =
        sentOn d c.wifi.uplink.kernel.log ++ sent.flatMap Carried.bytes :=
  run_handings hseq (reached_linked hreach) hrun hlasts hframes hmaster

/-- The loop of the driver comes to its call and receives one frame. -/
def handsOver : List Label :=
  [.thread .hwsimloop .proceed, .thread .hwsimloop .proceed,
    .thread .hwsimloop (.message smallMessage ⟨0, fun _ => none, fun _ => 0⟩ [])]

theorem handsOver_frames (c : Client) :
    Lts.Steps (step Libnl.walk) (HandsFrames Libnl.walk) c handsOver := by
  have hlabels : ∀ l ∈ handsOver, ∀ c, HandsFrames Libnl.walk c l := by
    intro l hl c h hh
    rcases List.mem_cons.mp hl with rfl | hl
    · cases hh
    rcases List.mem_cons.mp hl with rfl | hl
    · cases hh
    · rw [List.mem_singleton.mp hl, handings] at hh
      split at hh
      · rw [List.mem_singleton.mp hh]
        obtain ⟨hcarries, hreplaceable⟩ := CKernelWifi.smallMessage_carries
        exact ⟨⟨_, _, hcarries⟩, hreplaceable⟩
      · cases hh
  exact (Lts.steps_of_labels hlabels c).mono fun t _ h => h t

theorem frames_sent_small : ∃ c c',
    Lts.run (step Libnl.walk) (init (fun _ => 0) 30) (calmStart ⟨5, [], [1, 4096]⟩) = some c ∧
      Lts.run (step Libnl.walk) c handsOver = some c' ∧
      ∃ sent : List (Carried Libnl.walk),
        List.Forall₂ Carried.Sends sent
          (Lts.outputs (step Libnl.walk) (handings Libnl.walk) c handsOver) ∧
        sentOn 5 c'.wifi.uplink.kernel.log =
          sentOn 5 c.wifi.uplink.kernel.log ++ sent.flatMap Carried.bytes := by
  have hrun : (Lts.run (step Libnl.walk) (init (fun _ => 0) 30)
      (calmStart ⟨5, [], [1, 4096]⟩)).map (fun c =>
        ((Lts.run (step Libnl.walk) c handsOver).isSome,
          Lts.statesCheck (step Libnl.walk) (fun c => decide (Connected c)) c handsOver,
          c.wifi.uplink.master)) = some (true, true, some 5) := by
    decide +kernel
  obtain ⟨c, hc, heq⟩ := Option.map_eq_some_iff.mp hrun
  simp only [Prod.mk.injEq] at heq
  obtain ⟨hsome, hstates, hmaster⟩ := heq
  obtain ⟨c', hc'⟩ := Option.isSome_iff_exists.mp hsome
  have hlasts := Lts.states_of_statesCheck (fun _ h => of_decide_eq_true h) hstates
  exact ⟨c, c', hc, hc',
    frames_sent Libnl.walk_sequential hc hc' hlasts (handsOver_frames c) hmaster⟩

end Client

end Vwifi
