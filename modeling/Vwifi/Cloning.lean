import Vwifi.FrameAccess

/-!
# One copy for each radio

The list holds interfaces under their indices, and a frame is cloned once for each of
them. It reaches every radio once exactly when no two of them belong to one radio.
-/

namespace Vwifi

set_option autoImplicit false

/-! ## The lists that can be reached -/

inductive DeviceOp where
  | addDevice (d : WirelessDevice)
  | deleteDevice (d : WirelessDevice)

namespace WirelessDeviceList

def apply (l : WirelessDeviceList) : DeviceOp → WirelessDeviceList
  | .addDevice d => l.addDevice d
  | .deleteDevice d => l.deleteDevice d

/-- The list a sequence of operations leads to. -/
def after (ops : List DeviceOp) : WirelessDeviceList := ops.foldl apply SortedMap.empty

/-- Every device stands under its own index. -/
def Keyed (l : WirelessDeviceList) : Prop := ∀ e ∈ l.entries, e.1 = e.2.index

theorem apply_keyed {l : WirelessDeviceList} (h : Keyed l) (op : DeviceOp) :
    Keyed (l.apply op) := by
  intro e he
  cases op with
  | addDevice d =>
    rcases SortedMap.mem_insertEntry he with rfl | he
    · rfl
    · exact h e he
  | deleteDevice d => exact h e (List.mem_of_mem_filter he)

theorem after_keyed (ops : List DeviceOp) : Keyed (after ops) := by
  have hrun : ∀ (ops : List DeviceOp) (l : WirelessDeviceList), Keyed l →
      Keyed (ops.foldl apply l) := by
    intro ops
    induction ops with
    | nil => exact fun l h => h
    | cons op ops ih => exact fun l h => ih (l.apply op) (apply_keyed h op)
  exact hrun ops SortedMap.empty fun e he => absurd he List.not_mem_nil

theorem index_nodup {l : WirelessDeviceList} (h : Keyed l) :
    (l.listDevices.map WirelessDevice.index).Nodup := by
  have hkeys : l.listDevices.map WirelessDevice.index = l.entries.map Prod.fst := by
    rw [listDevices, SortedMap.values, List.map_map]
    exact List.map_congr_left fun e he => (h e he).symm
  rw [hkeys]
  apply List.Pairwise.map (R := fun a b : Int × WirelessDevice => a.1 < b.1) _ _ l.sorted
  exact fun a b hlt => ne_of_lt hlt

/-- No two interfaces of the list belong to one radio, unless it is the radio `t`. -/
def DistinctRadios (l : WirelessDeviceList) (t : Option EtherAddr) : Prop :=
  ∀ d ∈ l.listDevices, ∀ d' ∈ l.listDevices, some d.machwsim ≠ t →
    d.machwsim = d'.machwsim → d.index = d'.index

instance (l : WirelessDeviceList) (t : Option EtherAddr) : Decidable (DistinctRadios l t) :=
  inferInstanceAs (Decidable (∀ _ ∈ _, _))

theorem radios_nodup_iff {l : WirelessDeviceList} (h : Keyed l) (t : Option EtherAddr) :
    ((l.listDevices.map WirelessDevice.machwsim).filter fun radio => some radio ≠ t).Nodup ↔
      DistinctRadios l t := by
  have hindex := index_nodup h
  have hdevices := (hindex.of_map).filter fun d => some d.machwsim ≠ t
  have hfilter : (l.listDevices.map WirelessDevice.machwsim).filter (fun radio => some radio ≠ t) =
      (l.listDevices.filter fun d => some d.machwsim ≠ t).map WirelessDevice.machwsim :=
    List.filter_map
  rw [hfilter, List.nodup_map_iff_inj_on hdevices]
  constructor
  · intro hinj d hd d' hd' hne heq
    have hmem : d ∈ l.listDevices.filter fun d => some d.machwsim ≠ t :=
      List.mem_filter.mpr ⟨hd, decide_eq_true hne⟩
    have hmem' : d' ∈ l.listDevices.filter fun d => some d.machwsim ≠ t :=
      List.mem_filter.mpr ⟨hd', decide_eq_true (heq ▸ hne)⟩
    rw [hinj d hmem d' hmem' heq]
  · intro hdistinct d hd d' hd' heq
    obtain ⟨hmem, hne⟩ := List.mem_filter.mp hd
    obtain ⟨hmem', _⟩ := List.mem_filter.mp hd'
    have hsame := hdistinct d hmem d' hmem' (of_decide_eq_true hne) heq
    exact List.inj_on_of_nodup_map hindex hmem hmem' hsame

end WirelessDeviceList

/-! ## The radios of the calls -/

/-- The radios that the calls clone to, in their order. -/
def clonedTo (calls : List HwsimCall) : List EtherAddr := calls.filterMap (·.msg.radio)

/-- Each of the radios `dsts` gets one copy, and nobody else gets any. -/
def ClonedOnce (dsts : List EtherAddr) (calls : List HwsimCall) : Prop :=
  ∀ radio, (clonedTo calls).count radio = if radio ∈ dsts then 1 else 0

theorem clonedTo_clones {familyId : Int} {data : List UInt8} {rateIdx : Nat} {signal : Int}
    {freq : TFrequency} (dsts : List EtherAddr) (oks : List Bool) :
    clonedTo (Hwsim.clones familyId data rateIdx signal freq dsts oks) = dsts := by
  induction dsts generalizing oks with
  | nil => rfl
  | cons dst rest ih =>
    rw [Hwsim.clones]
    exact congrArg (dst :: ·) (ih oks.tail)

theorem clonedOnce_iff {dsts : List EtherAddr} {calls : List HwsimCall}
    (h : clonedTo calls = dsts) : ClonedOnce dsts calls ↔ dsts.Nodup := by
  rw [ClonedOnce, h]
  constructor
  · intro honce
    apply List.nodup_iff_count_le_one.mpr
    intro radio
    rw [honce radio]
    split
    · exact Nat.le_refl 1
    · exact Nat.zero_le 1
  · intro hnodup radio
    split
    · rename_i hmem
      exact List.count_eq_one_of_mem hnodup hmem
    · rename_i hmem
      exact List.count_eq_zero_of_not_mem hmem

/-! ## The two handlers -/

namespace CKernelWifi

variable {libnl : Libnl} {s s' : CKernelWifi}

/-- `recv_from_server` goes on to the loop over the radios. -/
structure AcceptsFrame (libnl : Libnl) (s : CKernelWifi) (sel : CSelect.Selection) (m : Unwritten)
    (oks : List Bool) (s' : CKernelWifi) : Prop where
  handled : s.recvFromServer libnl sel m oks = some s'
  reads : s.uplink.Reads sel
  frame : (decode libnl (Memory.ofBlock s.uplink.filled.buffer m.around) m.attrs).isFrame = true

/-- `process_messages` goes on to the loop over the radios, for a frame of the radio
`transmitter`. -/
structure HandlesFrame (libnl : Libnl) (s : CKernelWifi) (msg : NlMessage) (m : Unwritten)
    (oks : List Bool) (transmitter : EtherAddr) (s' : CKernelWifi) : Prop where
  handled : s.processMessages libnl msg m.attrs m.around oks = some s'
  connected : s.uplink.connectedToServer = true
  family : ((Memory.ofBlock msg.bytes m.around).nlmsgType : Int) = s.hwsim.familyId
  frame : (Memory.ofBlock msg.bytes m.around).cmd = HwsimCmd.frame.code
  transmitter : ∃ src, libnl.attrs (Memory.ofBlock msg.bytes m.around) m.attrs
      HwsimAttr.addrTransmitter.code = some src ∧
    (Memory.ofBlock msg.bytes m.around).etherAddr (Memory.nlaData src) = transmitter

theorem AcceptsFrame.clonedTo {sel : CSelect.Selection} {m : Unwritten} {oks : List Bool}
    (h : AcceptsFrame libnl s sel m oks s') : clonedTo (s.injected s') = s.radios := by
  rcases recvFromServer_cases h.handled with ⟨hidle, _⟩ | ⟨_, hcases, _⟩
  · exact absurd h.reads hidle
  · cases hcases with
    | ignored decoded _ =>
      rw [s.uplink.recvSignal_filled m.power, h.frame] at decoded
      cases decoded
    | frame data dataLen freq _ calls =>
      rw [injected, calls, List.drop_left, clonedTo_clones]

theorem HandlesFrame.clonedTo {msg : NlMessage} {m : Unwritten} {oks : List Bool}
    {transmitter : EtherAddr} (h : HandlesFrame libnl s msg m oks transmitter s') :
    clonedTo (s.injected s') = s.radios.filter fun radio => some radio ≠ some transmitter := by
  obtain ⟨hhandled, hconnected, hfamily, hframe, src, hsrc, rfl⟩ := h
  have hpasses : Passes libnl s msg m.attrs m.around :=
    ⟨hconnected, hfamily, hframe, Option.isSome_of_eq_some hsrc⟩
  obtain ⟨_, _, _, _, hsrc', _, _, _, rfl⟩ := (processMessages_some_iff hpasses).mp hhandled
  cases hsrc.symm.trans hsrc'
  rw [forwardFrame, acknowledged]
  simp only [Hwsim.cloneFrame_eq, injected, Hwsim.sendTxInfoFrameNl, Hwsim.call]
  rw [List.append_assoc, List.drop_left]
  -- the acknowledgement is for no radio
  refine (clonedTo_clones _ _).trans ?_
  apply List.filter_congr
  intro radio _
  simp only [ne_eq, Option.some.injEq]

/-- Whatever the history of the list is: a frame reaches every radio it is for exactly
once if and only if no two interfaces of the list belong to one such radio. It never
goes back to its transmitter. -/
theorem cloned_once_iff (ops : List DeviceOp)
    (hlist : s.interfaces.listWinterfaces = WirelessDeviceList.after ops) :
    (∀ libnl sel m oks s', AcceptsFrame libnl s sel m oks s' →
      (ClonedOnce s.radios (s.injected s') ↔ (WirelessDeviceList.after ops).DistinctRadios none)) ∧
    (∀ libnl msg m oks transmitter s', HandlesFrame libnl s msg m oks transmitter s' →
      (ClonedOnce (s.radios.filter (· ≠ transmitter)) (s.injected s') ↔
        (WirelessDeviceList.after ops).DistinctRadios (some transmitter)) ∧
      transmitter ∉ Vwifi.clonedTo (s.injected s')) := by
  have hkeyed := WirelessDeviceList.after_keyed ops
  rw [← hlist] at hkeyed ⊢
  constructor
  · intro libnl sel m oks s' h
    have hradios := WirelessDeviceList.radios_nodup_iff hkeyed none
    have hall : s.radios.filter (fun radio => some radio ≠ none) = s.radios := by
      apply List.filter_eq_self.mpr
      intro radio _
      exact decide_eq_true (Option.some_ne_none radio)
    change (s.radios.filter fun radio => some radio ≠ none).Nodup ↔ _ at hradios
    rw [hall] at hradios
    rw [clonedOnce_iff h.clonedTo, hradios]
  · intro libnl msg m oks transmitter s' h
    have hradios := WirelessDeviceList.radios_nodup_iff hkeyed (some transmitter)
    have hcloned := h.clonedTo
    have hothers : (s.radios.filter fun radio => some radio ≠ some transmitter) =
        s.radios.filter (· ≠ transmitter) := by
      apply List.filter_congr
      intro radio _
      simp only [ne_eq, Option.some.injEq]
    change (s.radios.filter fun radio => some radio ≠ some transmitter).Nodup ↔ _ at hradios
    rw [hothers] at hradios hcloned
    refine ⟨by rw [clonedOnce_iff hcloned, hradios], ?_⟩
    rw [hcloned]
    intro hmem
    exact of_decide_eq_true (List.mem_filter.mp hmem).2 rfl

/-- An interface of the radio `radio`. -/
def wlan (index : Int) (radio : UInt8) : WirelessDevice :=
  ⟨⟨[119, 108, 97, 110], by decide⟩, index, 2, 2000, ⟨[2, 0, 0, 0, 0, radio], rfl⟩,
    ⟨[66, 0, 0, 0, 0, radio], rfl⟩⟩

/-- A client with this list to which one frame is on its way. -/
def listeningClient (ops : List DeviceOp) : CKernelWifi :=
  { receivingClient (236 :: Client.shortFrame) with
    interfaces := ⟨true, WirelessDeviceList.after ops⟩ }

theorem listeningClient_accepts {ops : List DeviceOp} {radios : List EtherAddr}
    (h : ((listeningClient ops).recvFromServer Libnl.walk (.ready (fun _ => true) 1)
      ⟨0, fun _ => none, fun _ => 0⟩ []).map
        (fun s => Vwifi.clonedTo ((listeningClient ops).injected s)) = some radios) :
    ∃ s, AcceptsFrame Libnl.walk (listeningClient ops) (.ready (fun _ => true) 1)
      ⟨0, fun _ => none, fun _ => 0⟩ [] s ∧
        Vwifi.clonedTo ((listeningClient ops).injected s) = radios := by
  obtain ⟨s, hs, hradios⟩ := Option.map_eq_some_iff.mp h
  refine ⟨s, ⟨hs, ?_, ?_⟩, hradios⟩
  · change (listeningClient []).uplink.Reads (.ready (fun _ => true) 1)
    decide
  · change (decode Libnl.walk (Memory.ofBlock (listeningClient []).uplink.filled.buffer fun _ => 0)
      fun _ => none).isFrame = true
    decide +kernel

theorem cloned_once_two : ∃ s, ClonedOnce
    (listeningClient [.addDevice (wlan 3 1), .addDevice (wlan 4 2)]).radios
    ((listeningClient [.addDevice (wlan 3 1), .addDevice (wlan 4 2)]).injected s) := by
  obtain ⟨s, haccepts, _⟩ := @listeningClient_accepts
    [.addDevice (wlan 3 1), .addDevice (wlan 4 2)]
    [⟨[66, 0, 0, 0, 0, 1], rfl⟩, ⟨[66, 0, 0, 0, 0, 2], rfl⟩] (by decide +kernel)
  exact ⟨s, ((cloned_once_iff [.addDevice (wlan 3 1), .addDevice (wlan 4 2)] rfl).1
    _ _ _ _ s haccepts).mpr (by decide +kernel)⟩

/-- The second interface of a radio brings it the frame a second time. -/
theorem cloned_once_fails : ∃ s, AcceptsFrame Libnl.walk
    (listeningClient [.addDevice (wlan 3 1), .addDevice (wlan 4 1)]) (.ready (fun _ => true) 1)
      ⟨0, fun _ => none, fun _ => 0⟩ [] s ∧
    ¬ ClonedOnce (listeningClient [.addDevice (wlan 3 1), .addDevice (wlan 4 1)]).radios
      ((listeningClient [.addDevice (wlan 3 1), .addDevice (wlan 4 1)]).injected s) := by
  obtain ⟨s, haccepts, hradios⟩ := @listeningClient_accepts
    [.addDevice (wlan 3 1), .addDevice (wlan 4 1)]
    [⟨[66, 0, 0, 0, 0, 1], rfl⟩, ⟨[66, 0, 0, 0, 0, 1], rfl⟩] (by decide +kernel)
  refine ⟨s, haccepts, fun honce => ?_⟩
  have hcount := honce ⟨[66, 0, 0, 0, 0, 1], rfl⟩
  rw [hradios] at hcount
  revert hcount
  decide +kernel

end CKernelWifi

end Vwifi
