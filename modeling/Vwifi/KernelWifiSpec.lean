import Vwifi.Framing
import Vwifi.KernelWifi

/-!
# What the handlers of the client change

One lemma for each operation of the two sides. Neither `recv_from_server` nor
`process_messages` touches the family, the nodes of the scheduler or an open
descriptor: they clone frames, they talk over the current connection, and they
may report that it is lost.
-/

namespace Vwifi

set_option autoImplicit false

namespace Hwsim

/-- The calls by which a frame is cloned to the radios `dsts`. -/
def clones (familyId : Int) (data : List UInt8) (rateIdx : Nat) (signal : Int)
    (freq : TFrequency) : List EtherAddr → List Bool → List HwsimCall
  | [], _ => []
  | dst :: rest, oks =>
    ⟨.clonedFrame dst data rateIdx signal freq, 0 ≤ familyId && oks.headD true⟩ ::
      clones familyId data rateIdx signal freq rest oks.tail

section Clones

variable {familyId : Int} {data : List UInt8} {rateIdx : Nat} {signal : Int} {freq : TFrequency}

theorem cloneFrame_eq (dsts : List EtherAddr) (oks : List Bool) (h : Hwsim) :
    h.cloneFrame data rateIdx signal freq dsts oks =
      { h with calls := h.calls ++ clones h.familyId data rateIdx signal freq dsts oks } := by
  induction dsts generalizing oks h with
  | nil =>
    rw [cloneFrame, clones, List.append_nil]
  | cons dst rest ih =>
    rw [cloneFrame, ih, clones]
    simp only [sendClonedFrameMsg, call, List.append_assoc, List.singleton_append]

/-- Every radio is called once, in the order of the list. -/
theorem clones_msg (dsts : List EtherAddr) (oks : List Bool) :
    (clones familyId data rateIdx signal freq dsts oks).map HwsimCall.msg =
      dsts.map fun dst => .clonedFrame dst data rateIdx signal freq := by
  induction dsts generalizing oks with
  | nil => rfl
  | cons dst rest ih => rw [clones, List.map_cons, List.map_cons, ih]

theorem mem_clones {dsts : List EtherAddr} {oks : List Bool} {c : HwsimCall}
    (h : c ∈ clones familyId data rateIdx signal freq dsts oks) :
    ∃ dst ∈ dsts, c.msg = .clonedFrame dst data rateIdx signal freq := by
  have hmem := List.mem_map_of_mem (f := HwsimCall.msg) h
  rw [clones_msg] at hmem
  obtain ⟨dst, hdst, heq⟩ := List.mem_map.mp hmem
  exact ⟨dst, hdst, heq.symm⟩

/-- While the driver is loaded and libnl sends what it is given, all calls succeed. -/
theorem clones_sent (hloaded : 0 ≤ familyId) (dsts : List EtherAddr) {oks : List Bool}
    (hoks : ∀ ok ∈ oks, ok = true) :
    clones familyId data rateIdx signal freq dsts oks =
      dsts.map fun dst => ⟨.clonedFrame dst data rateIdx signal freq, true⟩ := by
  induction dsts generalizing oks with
  | nil => rfl
  | cons dst rest ih =>
    have hhead : oks.headD true = true := by
      cases oks with
      | nil => rfl
      | cons ok oks => exact hoks ok List.mem_cons_self
    rw [clones, List.map_cons, ih fun ok hok => hoks ok (List.mem_of_mem_tail hok), hhead,
      decide_eq_true hloaded]
    rfl

/-- Without the driver no call succeeds. -/
theorem clones_unsent (hunloaded : familyId < 0) {dsts : List EtherAddr} {oks : List Bool}
    {c : HwsimCall} (h : c ∈ clones familyId data rateIdx signal freq dsts oks) :
    c.sent = false := by
  induction dsts generalizing oks with
  | nil => cases h
  | cons dst rest ih =>
    rcases List.mem_cons.mp h with rfl | h
    · have hnot : ¬ 0 ≤ familyId := not_le.mpr hunloaded
      simp only [hnot, decide_false, Bool.false_and]
    · exact ih h

theorem clones_eq_nil_iff {dsts : List EtherAddr} {oks : List Bool} :
    clones familyId data rateIdx signal freq dsts oks = [] ↔ dsts = [] := by
  cases dsts with
  | nil => simp [clones]
  | cons dst rest => simp [clones]

end Clones

end Hwsim

/-- A call other than a registration. -/
def HwsimMsg.isRegister : HwsimMsg → Bool
  | .register _ => true
  | _ => false

/-- `u'` comes from `u` by what is done over a connection: the nodes, the current
descriptor and what is open are the same, and a lost connection stays lost. -/
structure Uplink.Transfers (u u' : Uplink) : Prop where
  listNodes : u'.scheduler.listNodes = u.scheduler.listNodes
  set : u'.scheduler.master = u.scheduler.master
  master : u'.master = u.master
  connected : u'.connectedToServer = true → u.connectedToServer = true
  opened : ∀ d, isOpen d u'.kernel.log = isOpen d u.kernel.log

namespace Uplink

variable {u u' u'' : Uplink}

theorem Transfers.refl (u : Uplink) : Transfers u u := ⟨rfl, rfl, rfl, id, fun _ => rfl⟩

theorem Transfers.trans (h : Transfers u u') (h' : Transfers u' u'') : Transfers u u'' where
  listNodes := h'.listNodes.trans h.listNodes
  set := h'.set.trans h.set
  master := h'.master.trans h.master
  connected := fun hc => h.connected (h'.connected hc)
  opened := fun d => (h'.opened d).trans (h.opened d)

theorem manageServerCrash_transfers (u : Uplink) : Transfers u u.manageServerCrash :=
  ⟨rfl, rfl, rfl, fun h => absurd h Bool.false_ne_true, fun _ => rfl⟩

theorem use_transfers (u : Uplink) (needed received : Nat) :
    Transfers u { u with kernel := u.kernel.record [.use needed received] } := by
  refine ⟨rfl, rfl, rfl, id, fun d => isOpen_transfer d u.kernel.log ?_⟩
  intro a ha
  rw [List.mem_singleton.mp ha]
  rfl

theorem wait_transfers (u : Uplink) (r : CSelect.Selection) :
    Transfers u { u with scheduler := (u.scheduler.wait r).2 } := by
  cases r <;> exact ⟨rfl, rfl, rfl, id, fun _ => rfl⟩

/-- What becomes of the connection in `_Connect`: only a success touches the scheduler. -/
inductive ConnectCases (u : Uplink) : Bool → Uplink → Prop where
  | failed {u' : Uplink} (scheduler : u'.scheduler = u.scheduler)
      (connected : u'.connectedToServer = u.connectedToServer) : ConnectCases u false u'
  | connected {u' : Uplink} (d : TDescriptor) (master : u'.master = some d)
      (scheduler : u'.scheduler = u.scheduler.addNode d)
      (connected : u'.connectedToServer = u.connectedToServer)
      (opened : isOpen d u'.kernel.log = true) : ConnectCases u true u'

theorem connect_cases (u : Uplink) (a : Attempt) :
    ConnectCases u (u.connect a).1 (u.connect a).2 := by
  cases a with
  | noSocket => exact .failed rfl rfl
  | refused d => exact .failed rfl rfl
  | connected c =>
    refine .connected c.descriptor rfl rfl rfl ?_
    simp only [connect, Kernel.connect, Kernel.socket, Kernel.accept, isOpen_append,
      List.foldl_cons, List.foldl_nil, openStep, if_pos]

/-- An attempt to connect does not yet count as a connection. -/
theorem connect_connected (u : Uplink) (a : Attempt) :
    (u.connect a).2.connectedToServer = u.connectedToServer := by
  have hcases := u.connect_cases a
  generalize u.connect a = r at hcases ⊢
  obtain ⟨ok, u'⟩ := r
  cases hcases with
  | failed _ connected => exact connected
  | connected _ _ _ connected _ => exact connected

theorem close_scheduler (u : Uplink) :
    u.close.scheduler = u.scheduler ∧ u.close.connectedToServer = u.connectedToServer ∧
      u.close.master = none := by
  unfold close
  split
  · rename_i hmaster
    exact ⟨rfl, rfl, hmaster⟩
  · exact ⟨rfl, rfl, rfl⟩

theorem sendSignal_transfers (u : Uplink) (power : TPower) (data : List UInt8) :
    Transfers u (u.sendSignal power data).2 := by
  unfold sendSignal
  cases hmaster : u.master with
  | none => exact .refl u
  | some d =>
    obtain ⟨acts, hcases, hwrites⟩ := CWifi.sendSignalWithSocket_cases u.kernel d power data
    refine ⟨rfl, rfl, hmaster.symm, id, fun x => ?_⟩
    dsimp only
    rw [hwrites.log]
    exact isOpen_transfer x u.kernel.log hcases.isTransfer

theorem forward_transfers (u : Uplink) (power : TPower) (data : List UInt8) :
    Transfers u (u.forward power data) := by
  have hsend := u.sendSignal_transfers power data
  unfold forward
  dsimp only
  split
  · exact hsend.trans (manageServerCrash_transfers _)
  · exact hsend

theorem recvSignal_opened (u : Uplink) (power : TPower) (d : TDescriptor) :
    isOpen d (u.recvSignal power).kernel.log = isOpen d u.kernel.log := by
  unfold recvSignal
  cases u.master with
  | none => rfl
  | some master =>
    dsimp only
    obtain ⟨acts, hlog, hacts⟩ :=
      (CWifi.recvSignal_readsFrom u.kernel master power u.buffer).reads
    rw [hlog]
    apply isOpen_transfer
    intro a ha
    exact Act.isTransfer_of_isRead (hacts a ha)

theorem received_transfers (u : Uplink) (power : TPower) :
    Transfers u (u.received (u.recvSignal power)) := by
  unfold received
  split
  · exact ⟨rfl, rfl, rfl, fun h => absurd h Bool.false_ne_true, u.recvSignal_opened power⟩
  · exact ⟨rfl, rfl, rfl, id, u.recvSignal_opened power⟩

end Uplink

namespace CKernelWifi

/-- What a handler may do to the client. -/
structure Handles (s s' : CKernelWifi) : Prop where
  familyId : s'.hwsim.familyId = s.hwsim.familyId
  initialized : s'.hwsim.initialized = s.hwsim.initialized
  calls : ∃ calls, s'.hwsim.calls = s.hwsim.calls ++ calls ∧ ∀ c ∈ calls, c.msg.isRegister = false
  uplink : s.uplink.Transfers s'.uplink
  beingInitialized : s'.beingInitialized = s.beingInitialized
  beingStarted : s'.beingStarted = s.beingStarted

variable {libnl : Libnl} {s s' : CKernelWifi}

theorem Handles.ofUplink {u : Uplink} (h : s.uplink.Transfers u) :
    Handles s { s with uplink := u } where
  familyId := rfl
  initialized := rfl
  calls := ⟨[], (List.append_nil _).symm, fun _ hc => nomatch hc⟩
  uplink := h
  beingInitialized := rfl
  beingStarted := rfl

theorem Handles.clones {u : Uplink} {h : Hwsim} {data : List UInt8} {rateIdx : Nat} {signal : Int}
    {freq : TFrequency} (before : List HwsimCall) (dsts : List EtherAddr) (oks : List Bool)
    (hu : s.uplink.Transfers u)
    (hh : h = { s.hwsim with calls := s.hwsim.calls ++ before })
    (hbefore : ∀ c ∈ before, c.msg.isRegister = false) :
    Handles s { s with hwsim := h.cloneFrame data rateIdx signal freq dsts oks, uplink := u } where
  familyId := by rw [Hwsim.cloneFrame_eq, hh]
  initialized := by rw [Hwsim.cloneFrame_eq, hh]
  calls := by
    refine ⟨before ++ Hwsim.clones s.hwsim.familyId data rateIdx signal freq dsts oks, ?_, ?_⟩
    · rw [Hwsim.cloneFrame_eq, hh, List.append_assoc]
    · intro c hc
      rcases List.mem_append.mp hc with hc | hc
      · exact hbefore c hc
      · obtain ⟨dst, _, heq⟩ := Hwsim.mem_clones hc
        rw [heq]
        rfl
  uplink := hu
  beingInitialized := rfl
  beingStarted := rfl

theorem handleSignal_handles {power : TPower} {old : AttrTable} {around : Memory} {oks : List Bool}
    (h : s.handleSignal libnl (s.uplink.recvSignal power) old around oks = some s') :
    Handles s s' := by
  have hreceived := s.uplink.received_transfers power
  unfold handleSignal at h
  dsimp only at h
  split at h
  · cases h
    exact .ofUplink hreceived
  · cases h
  · rename_i data dataLen freq _
    cases h
    have huse := (s.uplink.received (s.uplink.recvSignal power)).use_transfers 10 dataLen.toNat
    apply Handles.clones [] s.radios oks (hreceived.trans huse)
    · rw [List.append_nil]
    · intro c hc
      cases hc

theorem recvFromServer_handles {r : CSelect.Selection} {m : Unwritten} {oks : List Bool}
    (h : s.recvFromServer libnl r m oks = some s') : Handles s s' := by
  have hwait := Uplink.wait_transfers s.uplink r
  unfold recvFromServer at h
  dsimp only at h
  split at h
  · cases h
    exact .ofUplink hwait
  · split at h
    · cases h
    · cases h
      exact .ofUplink hwait
    · have hsignal := handleSignal_handles h
      exact
        { hsignal with uplink := hwait.trans hsignal.uplink }

theorem forwardFrame_handles {mem : Memory} {msgLen : Nat} {attrs : AttrTable} {src frame : Int}
    {oks : List Bool} {h : Hwsim} {before : List HwsimCall}
    (hh : h = { s.hwsim with calls := s.hwsim.calls ++ before })
    (hbefore : ∀ c ∈ before, c.msg.isRegister = false) :
    Handles s ({ s with hwsim := h }.forwardFrame mem msgLen attrs src frame oks) := by
  unfold forwardFrame
  dsimp only
  have huse := s.uplink.use_transfers 16 (mem.nlaLen frame).toNat
  exact Handles.clones before _ _ (huse.trans (Uplink.forward_transfers _ _ _)) hh hbefore

section ProcessMessages

variable {msg : NlMessage} {old : AttrTable} {around : Memory} {oks : List Bool}

/-- The message passes the checks of `process_messages`. -/
structure Passes (libnl : Libnl) (s : CKernelWifi) (msg : NlMessage) (old : AttrTable)
    (around : Memory) : Prop where
  connected : s.uplink.connectedToServer = true
  family : ((Memory.ofBlock msg.bytes around).nlmsgType : Int) = s.hwsim.familyId
  cmd : (Memory.ofBlock msg.bytes around).cmd = HwsimCmd.frame.code
  transmitter : (libnl.attrs (Memory.ofBlock msg.bytes around) old
    HwsimAttr.addrTransmitter.code).isSome

/-- The frame has been reported to its sender. -/
def acknowledged (s : CKernelWifi) (mem : Memory) (attrs : AttrTable) (src flags txInfo : Int)
    (ok : Bool) : CKernelWifi :=
  { s with
    hwsim := s.hwsim.sendTxInfoFrameNl (mem.etherAddr (Memory.nlaData src))
      (mem.nlaGetU32 flags ||| hwsimTxStatAck) (-10) (mem.read (Memory.nlaData txInfo) txInfoSize)
      (mem.nlaGetU64 (attrs HwsimAttr.cookie.code)) ok }

theorem processMessages_idle (h : ¬ Passes libnl s msg old around) :
    s.processMessages libnl msg old around oks = some s := by
  unfold processMessages
  dsimp only
  split
  · rfl
  · rename_i hconnected
    split
    · rfl
    · rename_i hfamily
      split
      · rfl
      · rename_i hcmd
        split
        · rfl
        · rename_i src hsrc
          exact absurd ⟨not_not.mp hconnected, not_not.mp hfamily, not_not.mp hcmd,
            Option.isSome_of_eq_some hsrc⟩ h

/-- A message that passes the checks is handled when the other attributes are there. -/
theorem processMessages_some_iff (h : Passes libnl s msg old around) :
    s.processMessages libnl msg old around oks = some s' ↔
      ∃ src flags txInfo frame,
        libnl.attrs (Memory.ofBlock msg.bytes around) old HwsimAttr.addrTransmitter.code =
          some src ∧
        libnl.attrs (Memory.ofBlock msg.bytes around) old HwsimAttr.flags.code = some flags ∧
        libnl.attrs (Memory.ofBlock msg.bytes around) old HwsimAttr.txInfo.code = some txInfo ∧
        libnl.attrs (Memory.ofBlock msg.bytes around) old HwsimAttr.frame.code = some frame ∧
        s' = (s.acknowledged (Memory.ofBlock msg.bytes around)
          (libnl.attrs (Memory.ofBlock msg.bytes around) old) src flags txInfo
          (oks.headD true)).forwardFrame (Memory.ofBlock msg.bytes around) msg.bytes.length
            (libnl.attrs (Memory.ofBlock msg.bytes around) old) src frame oks.tail := by
  obtain ⟨hconnected, hfamily, hcmd, htransmitter⟩ := h
  obtain ⟨src, hsrc⟩ := Option.isSome_iff_exists.mp htransmitter
  unfold processMessages
  dsimp only
  rw [if_neg (not_not.mpr hconnected), if_neg (not_not.mpr hfamily), if_neg (not_not.mpr hcmd),
    hsrc]
  dsimp only
  constructor
  · intro hhandled
    split at hhandled
    · rename_i flags txInfo frame hflags htxInfo hframe
      exact ⟨src, flags, txInfo, frame, rfl, hflags, htxInfo, hframe,
        (Option.some.inj hhandled).symm⟩
    · cases hhandled
  · rintro ⟨_, flags, txInfo, frame, ⟨⟩, hflags, htxInfo, hframe, rfl⟩
    rw [hflags, htxInfo, hframe]
    rfl

theorem processMessages_handles (h : s.processMessages libnl msg old around oks = some s') :
    Handles s s' := by
  by_cases hpasses : Passes libnl s msg old around
  · obtain ⟨src, flags, txInfo, frame, _, _, _, _, rfl⟩ := (processMessages_some_iff hpasses).mp h
    apply forwardFrame_handles rfl
    intro c hc
    rw [List.mem_singleton.mp hc]
    rfl
  · rw [processMessages_idle hpasses] at h
    cases h
    exact Handles.ofUplink (Uplink.Transfers.refl s.uplink)

end ProcessMessages

end CKernelWifi

end Vwifi
