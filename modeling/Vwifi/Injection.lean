import Mathlib.Data.List.Nodup
import Vwifi.ClientPhases
import Vwifi.DeviceSync

/-!
# The frames that are injected

`recv_from_server` goes on with what the buffer holds whatever `_RecvSignal` has
returned. What it injects in one call is compared with the message the call has
received: what arrived of it (`WholeMessage`), what the buffer makes of it
(`Injects`), and from both when the call injects that frame and no other.
-/

namespace Vwifi

set_option autoImplicit false

open LittleEndian

/-- The frame in a netlink message: the payload of its attribute for the frame, if the
message is long enough for a generic netlink header. -/
def frameOf (libnl : Libnl) (message : List UInt8) : Option (List UInt8) :=
  if message.length < sizeofNlmsghdr + genlHdrlen then none
  else
    (libnl.genlmsgParse hwsimAttrMax message).bind fun table =>
      (table HwsimAttr.frame.code).map fun p =>
        (message.drop (p + nlaHdrlen)).take (value ((message.drop p).take 2) - nlaHdrlen)

/-- The bytes `arrived` behind a power byte begin with a whole netlink message, of a
size that is accepted. -/
structure WholeMessage (libnl : Libnl) (arrived : List UInt8) : Prop where
  header : ((sizeofNlmsghdr + genlHdrlen : Nat) : Int) ≤ CWifi.nlmsgLen arrived
  bounded : CWifi.nlmsgLen arrived ≤ mtu
  complete : (CWifi.nlmsgLen arrived).toNat ≤ arrived.length
  parsed : (libnl.genlmsgParse hwsimAttrMax
    (arrived.take (CWifi.nlmsgLen arrived).toNat)).isSome

/-! ## What the buffer makes of a message -/

namespace CKernelWifi

def Decoded.isFrame : Decoded → Bool
  | .frame _ _ _ => true
  | _ => false

section Decode

variable {libnl : Libnl} {block : List UInt8} {around : Memory} {old : AttrTable}

theorem decode_frame {data dataLen : Int} {freq : TFrequency}
    (h : decode libnl (Memory.ofBlock block around) old = .frame data dataLen freq) :
    ∃ p, libnl.attrs (Memory.ofBlock block around) old HwsimAttr.frame.code = some p ∧
      data = Memory.nlaData p ∧ dataLen = (Memory.ofBlock block around).nlaLen p := by
  unfold decode at h
  dsimp only at h
  split at h
  · cases h
  · split at h
    · cases h
    · split at h
      · cases h
      · rename_i p hp
        cases h
        exact ⟨p, hp, rfl, rfl⟩

/-- Where the buffer begins with a message that can be parsed, the data that is injected
is the frame of that message. -/
theorem decode_frameOf {message : List UInt8} {table : Nat → Option Nat} {data dataLen : Int}
    {freq : TFrequency} (hbegins : Begins block message)
    (hparsed : libnl.genlmsgParse hwsimAttrMax message = some table)
    (h : decode libnl (Memory.ofBlock block around) old = .frame data dataLen freq) :
    frameOf libnl message = some ((Memory.ofBlock block around).read data dataLen.toNat) := by
  have hheader : ¬ message.length < sizeofNlmsghdr + genlHdrlen := by
    intro hshort
    rw [libnl.short _ _ (by rw [hbegins.header]; exact hshort)] at hparsed
    cases hparsed
  obtain ⟨attr, hattr, rfl, rfl⟩ := decode_frame h
  rw [hbegins.attrs libnl around old hparsed] at hattr
  obtain ⟨p, hp, rfl⟩ := Option.map_eq_some_iff.mp hattr
  -- the attribute lies within the message, so it is read from there
  obtain ⟨hlength, hend⟩ := hbegins.nlaLen around hparsed hp
  have hdata := hbegins.read around hend
  rw [frameOf, if_neg hheader, hparsed, Option.bind_some, hp, Option.map_some, Int.ofNat_eq_natCast,
    hlength, Int.toNat_natCast, ← hdata]
  rfl

end Decode

end CKernelWifi

/-! ## What one call receives -/

namespace Uplink

/-- What the server still delivers over the current connection. -/
def supply (u : Uplink) : List UInt8 :=
  match u.master with
  | none => []
  | some d => u.kernel.supply d

/-- What the buffer holds when `_RecvSignal` returns. -/
def filled (u : Uplink) : CDynBuffer :=
  match u.supply with
  | [] => u.buffer
  | _ :: arrived => CWifi.arrivedIn u.kernel.heap u.buffer arrived

/-- The server delivers a power byte and a whole message. -/
def DeliversWhole (libnl : Libnl) (u : Uplink) : Prop :=
  ∃ b arrived, u.supply = b :: arrived ∧ WholeMessage libnl arrived

/-- The header that comes next has a negative length that is not taken for an error. -/
def NegativeLength (u : Uplink) : Prop :=
  ∃ b arrived, u.supply = b :: arrived ∧ sizeofNlmsghdr ≤ arrived.length ∧
    CWifi.nlmsgLen arrived < socketError

variable {libnl : Libnl} {u : Uplink} {power : TPower}

theorem recvSignal_filled (u : Uplink) (power : TPower) :
    (u.recvSignal power).buffer = u.filled := by
  unfold recvSignal filled supply
  cases u.master with
  | none => rfl
  | some d => exact CWifi.recvSignal_buffer u.kernel d power u.buffer

theorem recvSignal_cases (u : Uplink) (power : TPower) :
    (u.supply = [] ∧ (u.recvSignal power).valread = socketError) ∨
      ∃ d, u.supply = u.kernel.supply d ∧ CWifi.RecvCases u.kernel d (u.recvSignal power) := by
  unfold recvSignal supply
  cases u.master with
  | none => exact Or.inl ⟨rfl, rfl⟩
  | some d => exact Or.inr ⟨d, rfl, CWifi.recvSignal_cases u.kernel d power u.buffer⟩

/-- A call that does not fail has read the header and what it announces. -/
theorem recvSignal_stored (hne : (u.recvSignal power).valread ≠ socketError) :
    ∃ b arrived, u.supply = b :: arrived ∧ sizeofNlmsghdr ≤ arrived.length ∧
      (u.recvSignal power).valread = CWifi.nlmsgLen arrived ∧
      CWifi.nlmsgLen arrived ≤ mtu ∧ (CWifi.nlmsgLen arrived).toNat ≤ arrived.length ∧
      (u.recvSignal power).power = b.toInt8 ∧
      (u.recvSignal power).buffer.buffer.take (CWifi.nlmsgLen arrived).toNat =
        arrived.take (CWifi.nlmsgLen arrived).toNat := by
  rcases u.recvSignal_cases power with ⟨_, hfailed⟩ | ⟨d, hsupply, hcases⟩
  · exact absurd hfailed hne
  · cases hcases with
    | failed hfailed _ => exact absurd hfailed hne
    | stored b arrived supply header valread bounded complete power message _ =>
      rw [valread] at bounded complete message
      exact ⟨b, arrived, hsupply.trans supply, header, valread, bounded, complete, power, message⟩

/-- A call fails only where no whole message of an accepted size is delivered. -/
theorem recvSignal_failed (hfailed : (u.recvSignal power).valread = socketError) {b : UInt8}
    {arrived : List UInt8} (hsupply : u.supply = b :: arrived)
    (hheader : sizeofNlmsghdr ≤ arrived.length) (hne : CWifi.nlmsgLen arrived ≠ socketError) :
    mtu < CWifi.nlmsgLen arrived ∨ arrived.length < (CWifi.nlmsgLen arrived).toNat := by
  rcases u.recvSignal_cases power with ⟨hnil, _⟩ | ⟨d, heq, hcases⟩
  · rw [hnil] at hsupply
    cases hsupply
  · rw [heq] at hsupply
    cases hcases with
    | failed _ incomplete =>
      by_cases hmtu : mtu < CWifi.nlmsgLen arrived
      · exact Or.inl hmtu
      · exact Or.inr (incomplete b arrived hsupply hheader (Int.not_lt.mp hmtu))
    | stored b' arrived' supply _ valread _ _ _ _ _ =>
      rw [hsupply] at supply
      cases supply
      exact absurd (valread.symm.trans hfailed) hne

theorem recvSignal_whole (power : TPower) {b : UInt8} {arrived : List UInt8}
    (hsupply : u.supply = b :: arrived) (hwhole : WholeMessage libnl arrived)
    {r : CWifi.Received} (hr : u.recvSignal power = r) :
    r.valread = CWifi.nlmsgLen arrived ∧ r.power = b.toInt8 ∧
      r.valread.toNat ≤ r.buffer.buffer.length ∧
      value (r.buffer.buffer.take 4) = r.valread.toNat ∧
      r.buffer.buffer.take r.valread.toNat = arrived.take r.valread.toNat := by
  have hheader := hwhole.header
  have hcomplete := hwhole.complete
  rw [sizeofNlmsghdr, genlHdrlen] at hheader
  have hne : (u.recvSignal power).valread ≠ socketError := by
    intro hfailed
    have hbounded := hwhole.bounded
    have hlong := recvSignal_failed hfailed hsupply (by rw [sizeofNlmsghdr]; omega)
      (by rw [socketError]; omega)
    omega
  obtain ⟨b', arrived', hsupply', _, hvalread, _, _, hpower, hmessage⟩ := recvSignal_stored hne
  rw [hsupply] at hsupply'
  cases hsupply'
  rw [← hvalread] at hheader hcomplete hmessage
  rw [hr] at hheader hcomplete hmessage hvalread hpower
  have hlength := congrArg List.length hmessage
  rw [List.length_take, List.length_take] at hlength
  have hfour : r.buffer.buffer.take 4 = arrived.take 4 := by
    have htake := congrArg (List.take 4) hmessage
    rwa [List.take_take, List.take_take, Nat.min_eq_left (by omega)] at htake
  have hvalue := CWifi.nlmsgLen_of_nonneg (by omega : 0 ≤ CWifi.nlmsgLen arrived)
  exact ⟨hvalread, hpower, by omega, by rw [hfour]; omega, hmessage⟩

/-- Where no whole message was delivered there is no frame in what the call has read. -/
theorem frameOf_incomplete (h : ¬ u.DeliversWhole libnl)
    (hvalread : 0 ≤ (u.recvSignal power).valread) {b : UInt8} {arrived : List UInt8}
    (hsupply : u.supply = b :: arrived) :
    frameOf libnl (arrived.take (u.recvSignal power).valread.toNat) = none := by
  have hne : (u.recvSignal power).valread ≠ socketError := by
    rw [socketError]
    omega
  obtain ⟨b', arrived', hsupply', _, heq, hbounded, hcomplete, _⟩ := recvSignal_stored hne
  rw [hsupply] at hsupply'
  cases hsupply'
  rw [heq, frameOf]
  split
  · rfl
  · rename_i hlong
    rw [List.length_take] at hlong
    cases hparsed : libnl.genlmsgParse hwsimAttrMax
        (arrived.take (CWifi.nlmsgLen arrived).toNat) with
    | none => rfl
    | some table =>
      refine absurd ⟨b, arrived, hsupply, ?_, hbounded, hcomplete, ?_⟩ h
      · omega
      · rw [hparsed]
        rfl

theorem recvSignal_negative (power : TPower) (h : u.NegativeLength) :
    (u.recvSignal power).valread < 0 := by
  obtain ⟨b, arrived, hsupply, _, hlength⟩ := h
  rw [socketError] at hlength
  by_contra hpositive
  have hne : (u.recvSignal power).valread ≠ socketError := by
    rw [socketError]
    omega
  obtain ⟨b', arrived', hsupply', _, heq, _⟩ := recvSignal_stored hne
  rw [hsupply] at hsupply'
  cases hsupply'
  omega

/-- Of the negative results only one is an error. -/
theorem recvSignal_socketError_iff (hneg : (u.recvSignal power).valread < 0) :
    (u.recvSignal power).valread = socketError ↔ ¬ u.NegativeLength := by
  constructor
  · rintro hfailed ⟨b, arrived, hsupply, hheader, hlength⟩
    have hlong := recvSignal_failed hfailed hsupply hheader (Int.ne_of_lt hlength)
    rw [socketError] at hlength
    rw [mtu] at hlong
    omega
  · intro h
    by_contra hne
    obtain ⟨b, arrived, hsupply, hheader, heq, _⟩ := recvSignal_stored hne
    refine h ⟨b, arrived, hsupply, hheader, ?_⟩
    rw [socketError] at hne ⊢
    omega

theorem received_buffer (u : Uplink) (r : CWifi.Received) : (u.received r).buffer = r.buffer := by
  unfold received
  split <;> rfl

theorem received_connected (u : Uplink) (r : CWifi.Received) :
    (u.received r).connectedToServer = false ↔
      r.valread = socketError ∨ u.connectedToServer = false := by
  unfold received
  split
  · rename_i hfailed
    exact iff_of_true rfl (Or.inl hfailed)
  · rename_i hne
    exact (or_iff_right hne).symm

/-- `Wait` succeeds, and there is action on the first node. -/
def Reads (u : Uplink) (r : CSelect.Selection) : Prop :=
  (u.scheduler.wait r).1 ≠ CSelect.schedulerError ∧
    (u.scheduler.wait r).2.nodeHasAction 0 = some true

instance (u : Uplink) (r : CSelect.Selection) : Decidable (u.Reads r) :=
  inferInstanceAs (Decidable (_ ∧ _))

end Uplink

/-! ## What one call injects -/

/-- The radio a message of the client is for. -/
def HwsimMsg.radio : HwsimMsg → Option EtherAddr
  | .clonedFrame dst _ _ _ _ => some dst
  | _ => none

namespace Hwsim

variable {familyId : Int} {data : List UInt8} {rateIdx : Nat} {signal : Int} {freq : TFrequency}

theorem clones_radio_nodup (dsts : List EtherAddr) (oks : List Bool) :
    ((clones familyId data rateIdx signal freq dsts oks).map (·.msg.radio)).Nodup ↔
      dsts.Nodup := by
  have hradio : (clones familyId data rateIdx signal freq dsts oks).map (·.msg.radio) =
      dsts.map some := by
    calc (clones familyId data rateIdx signal freq dsts oks).map (·.msg.radio)
        = ((clones familyId data rateIdx signal freq dsts oks).map HwsimCall.msg).map
            HwsimMsg.radio := by rw [List.map_map]; rfl
      _ = dsts.map some := by rw [clones_msg, List.map_map]; rfl
  rw [hradio]
  exact List.nodup_map_iff fun _ _ => Option.some.inj

end Hwsim

namespace CKernelWifi

variable {libnl : Libnl} {s s' : CKernelWifi}

/-- The calls to the driver between two states. -/
def injected (s s' : CKernelWifi) : List HwsimCall := s'.hwsim.calls.drop s.hwsim.calls.length

/-- What `recv_from_server` has to make of what `_RecvSignal` returned: what is injected
is the frame among the bytes that this call has taken from the stream. -/
structure InjectsReceived (libnl : Libnl) (s s' : CKernelWifi) (r : CWifi.Received) : Prop where
  failed : r.valread < 0 → s.injected s' = [] ∧ s'.uplink.connectedToServer = false
  frame : ∀ c ∈ s.injected s', ∃ power message dst data freq,
    s.uplink.supply = power :: message ∧
      frameOf libnl (message.take r.valread.toNat) = some data ∧
      c.msg = .clonedFrame dst data rateIdx power.toInt8.toInt freq
  once : ((s.injected s').map (·.msg.radio)).Nodup

/-- There is a radio, and the buffer begins with what passes for the message of a frame. -/
def Injects (libnl : Libnl) (s : CKernelWifi) (m : Unwritten) : Prop :=
  s.radios ≠ [] ∧
    (decode libnl (Memory.ofBlock s.uplink.filled.buffer m.around) m.attrs).isFrame = true

/-- Either a whole message arrives, and the frame in it goes to distinct radios; or
nothing that passes for a frame is in the buffer, and no length is taken for a result
that is none. -/
def ReceivesSoundly (libnl : Libnl) (s : CKernelWifi) (m : Unwritten) : Prop :=
  (s.uplink.DeliversWhole libnl → Injects libnl s m → s.radios.Nodup) ∧
    (¬ s.uplink.DeliversWhole libnl →
      ¬ Injects libnl s m ∧ (s.uplink.NegativeLength → s.uplink.connectedToServer = false))

/-- What `recv_from_server` does about what it has received: whether the connection is
lost depends on the result, whether something is injected on the buffer. -/
inductive SignalCases (libnl : Libnl) (s s' : CKernelWifi) (r : CWifi.Received)
    (m : Unwritten) (oks : List Bool) : Prop where
  | ignored
      (decoded : (decode libnl (Memory.ofBlock r.buffer.buffer m.around) m.attrs).isFrame = false)
      (calls : s'.hwsim.calls = s.hwsim.calls)
  | frame (data dataLen : Int) (freq : TFrequency)
      (decoded : decode libnl (Memory.ofBlock r.buffer.buffer m.around) m.attrs =
        .frame data dataLen freq)
      (calls : s'.hwsim.calls = s.hwsim.calls ++
        Hwsim.clones s.hwsim.familyId
          ((Memory.ofBlock r.buffer.buffer m.around).read data dataLen.toNat) rateIdx
          r.power.toInt freq s.radios oks)

theorem handleSignal_cases {r : CWifi.Received} {m : Unwritten} {oks : List Bool}
    (h : s.handleSignal libnl r m.attrs m.around oks = some s') :
    SignalCases libnl s s' r m oks ∧
      s'.uplink.connectedToServer = (s.uplink.received r).connectedToServer := by
  unfold handleSignal at h
  dsimp only at h
  rw [Uplink.received_buffer] at h
  split at h
  · rename_i hdecoded
    cases h
    exact ⟨.ignored (by rw [hdecoded]; rfl) rfl, rfl⟩
  · cases h
  · rename_i data dataLen freq hdecoded
    cases h
    refine ⟨.frame data dataLen freq hdecoded ?_, rfl⟩
    dsimp only
    rw [Hwsim.cloneFrame_eq]

theorem recvFromServer_cases {sel : CSelect.Selection} {m : Unwritten} {oks : List Bool}
    (h : s.recvFromServer libnl sel m oks = some s') :
    (¬ s.uplink.Reads sel ∧ s'.hwsim = s.hwsim) ∨
      (s.uplink.Reads sel ∧ SignalCases libnl s s' (s.uplink.recvSignal m.power) m oks ∧
        (s'.uplink.connectedToServer = false ↔
          (s.uplink.recvSignal m.power).valread = socketError ∨
            s.uplink.connectedToServer = false)) := by
  unfold recvFromServer at h
  dsimp only at h
  split at h
  · rename_i herror
    cases h
    exact Or.inl ⟨fun hreads => hreads.1 herror, rfl⟩
  · rename_i hret
    split at h
    · cases h
    · rename_i hidle
      cases h
      refine Or.inl ⟨fun hreads => ?_, rfl⟩
      rw [hreads.2] at hidle
      cases hidle
    · rename_i haction
      obtain ⟨hcases, hconnected⟩ := handleSignal_cases h
      refine Or.inr ⟨⟨hret, haction⟩, ?_, ?_⟩
      · cases hcases with
        | ignored decoded calls => exact .ignored decoded calls
        | frame data dataLen freq decoded calls => exact .frame data dataLen freq decoded calls
      · rw [hconnected]
        exact Uplink.received_connected _ _

section Handled

variable {m : Unwritten} {oks : List Bool}

theorem injected_eq_nil_iff
    (h : SignalCases libnl s s' (s.uplink.recvSignal m.power) m oks) :
    s.injected s' = [] ↔ ¬ Injects libnl s m := by
  unfold injected Injects
  rw [← s.uplink.recvSignal_filled m.power]
  cases h with
  | ignored decoded calls =>
    rw [calls, List.drop_length, decoded]
    exact iff_of_true rfl fun h => Bool.false_ne_true h.2
  | frame data dataLen freq decoded calls =>
    rw [calls, List.drop_left, Hwsim.clones_eq_nil_iff, decoded]
    exact ⟨fun hnil h => h.1 hnil, fun h => by_contra fun hne => h ⟨hne, rfl⟩⟩

/-- Where a whole message was delivered, what is injected is the frame in it; only a
radio that is listed twice gets it twice. -/
theorem injectsReceived_whole (hwhole : s.uplink.DeliversWhole libnl)
    (h : SignalCases libnl s s' (s.uplink.recvSignal m.power) m oks) :
    InjectsReceived libnl s s' (s.uplink.recvSignal m.power) ↔
      (Injects libnl s m → s.radios.Nodup) := by
  have hempty := injected_eq_nil_iff h
  obtain ⟨b, arrived, hsupply, hwhole⟩ := hwhole
  obtain ⟨hvalread, hpower, hlength, hvalue, hmessage⟩ :=
    Uplink.recvSignal_whole m.power hsupply hwhole rfl
  have hheader := hwhole.header
  have hpositive : ¬ (s.uplink.recvSignal m.power).valread < 0 := by omega
  by_cases hinjects : Injects libnl s m
  · cases h with
    | ignored decoded calls =>
      rw [Injects, ← s.uplink.recvSignal_filled m.power, decoded] at hinjects
      exact absurd hinjects.2 Bool.false_ne_true
    | frame data dataLen freq decoded calls =>
      have hparsed := hwhole.parsed
      rw [← hvalread, ← hmessage] at hparsed
      obtain ⟨table, htable⟩ := Option.isSome_iff_exists.mp hparsed
      have hbegins := Begins.of_take hlength hvalue (by rw [sizeofNlmsghdr] at hheader ⊢; omega)
      have hframe := decode_frameOf hbegins htable decoded
      rw [hmessage] at hframe
      generalize (Memory.ofBlock _ _).read data dataLen.toNat = received at calls hframe
      have hinjected : s.injected s' = Hwsim.clones s.hwsim.familyId received rateIdx
          b.toInt8.toInt freq s.radios oks := by
        rw [injected, calls, List.drop_left, hpower]
      have honce := @Hwsim.clones_radio_nodup s.hwsim.familyId received rateIdx b.toInt8.toInt freq
        s.radios oks
      rw [← hinjected] at honce
      constructor
      · intro hreceived _
        exact honce.mp hreceived.once
      · intro hnodup
        refine ⟨fun hneg => absurd hneg hpositive, fun c hc => ?_, honce.mpr (hnodup hinjects)⟩
        rw [hinjected] at hc
        obtain ⟨dst, _, hmsg⟩ := Hwsim.mem_clones hc
        exact ⟨b, arrived, dst, received, freq, hsupply, hframe, hmsg⟩
  · have hnil := hempty.mpr hinjects
    refine iff_of_true ⟨fun hneg => absurd hneg hpositive, ?_, ?_⟩ fun h => absurd h hinjects
    · rw [hnil]
      exact fun c hc => absurd hc List.not_mem_nil
    · rw [hnil]
      exact List.nodup_nil

theorem injectsReceived_incomplete (hwhole : ¬ s.uplink.DeliversWhole libnl) :
    InjectsReceived libnl s s' (s.uplink.recvSignal m.power) ↔
      s.injected s' = [] ∧
        ((s.uplink.recvSignal m.power).valread < 0 → s'.uplink.connectedToServer = false) := by
  constructor
  · intro hreceived
    refine ⟨?_, fun hneg => (hreceived.failed hneg).2⟩
    by_cases hneg : (s.uplink.recvSignal m.power).valread < 0
    · exact (hreceived.failed hneg).1
    · apply List.eq_nil_iff_forall_not_mem.mpr
      intro c hc
      obtain ⟨power, message, dst, data, freq, hsupply, hframe, _⟩ := hreceived.frame c hc
      rw [Uplink.frameOf_incomplete hwhole (Int.not_lt.mp hneg) hsupply] at hframe
      cases hframe
  · rintro ⟨hnil, hlost⟩
    refine ⟨fun hneg => ⟨hnil, hlost hneg⟩, ?_, ?_⟩
    · rw [hnil]
      exact fun c hc => absurd hc List.not_mem_nil
    · rw [hnil]
      exact List.nodup_nil

/-- A call that reads injects what it received, and nothing when it fails, exactly when
it receives soundly. -/
theorem injectsReceived_iff
    (h : SignalCases libnl s s' (s.uplink.recvSignal m.power) m oks)
    (hconnected : s'.uplink.connectedToServer = false ↔
      (s.uplink.recvSignal m.power).valread = socketError ∨ s.uplink.connectedToServer = false) :
    InjectsReceived libnl s s' (s.uplink.recvSignal m.power) ↔ ReceivesSoundly libnl s m := by
  unfold ReceivesSoundly
  by_cases hwhole : s.uplink.DeliversWhole libnl
  · rw [injectsReceived_whole hwhole h]
    exact ⟨fun hnodup => ⟨fun _ => hnodup, absurd hwhole⟩, fun hsound => hsound.1 hwhole⟩
  · rw [injectsReceived_incomplete hwhole, injected_eq_nil_iff h, hconnected]
    have hlost : ((s.uplink.recvSignal m.power).valread < 0 →
        (s.uplink.recvSignal m.power).valread = socketError ∨
          s.uplink.connectedToServer = false) ↔
        (s.uplink.NegativeLength → s.uplink.connectedToServer = false) := by
      by_cases hneg : (s.uplink.recvSignal m.power).valread < 0
      · rw [Uplink.recvSignal_socketError_iff hneg, ← imp_iff_not_or]
        exact ⟨fun himp => himp hneg, fun himp _ => himp⟩
      · exact ⟨fun _ hlength => absurd (Uplink.recvSignal_negative m.power hlength) hneg,
          fun _ hneg' => absurd hneg' hneg⟩
    rw [hlost]
    exact ⟨fun hsound => ⟨fun hw => absurd hw hwhole, fun _ => hsound⟩,
      fun hsound => hsound.2 hwhole⟩

end Handled

end CKernelWifi

/-! ## Runs -/

namespace Client

variable {libnl : Libnl}

def InjectsReceived (libnl : Libnl) (c : Client) : Label → Prop
  | .thread .serverloop (.selected r m oks) =>
    ∀ s, c.wifi.recvFromServer libnl r m oks = some s →
      (c.wifi.uplink.Reads r →
        CKernelWifi.InjectsReceived libnl c.wifi s (c.wifi.uplink.recvSignal m.power)) ∧
      (¬ c.wifi.uplink.Reads r → c.wifi.injected s = [])
  | _ => True

def ReceivesSoundly (libnl : Libnl) (c : Client) : Label → Prop
  | .thread .serverloop (.selected r m _) =>
    c.wifi.uplink.Reads r → CKernelWifi.ReceivesSoundly libnl c.wifi m
  | _ => True

theorem proceed_injects_iff (c : Client) (t : Task) :
    InjectsReceived libnl c (.thread t .proceed) ↔
      ReceivesSoundly libnl c (.thread t .proceed) := by
  cases t <;> exact Iff.rfl

theorem recvFromServer_injects_iff {c : Client} {s : CKernelWifi} {r : CSelect.Selection}
    {m : Unwritten} {oks : List Bool} (h : c.wifi.recvFromServer libnl r m oks = some s) :
    InjectsReceived libnl c (.thread .serverloop (.selected r m oks)) ↔
      ReceivesSoundly libnl c (.thread .serverloop (.selected r m oks)) := by
  rcases CKernelWifi.recvFromServer_cases h with ⟨hidle, hhwsim⟩ | ⟨hreads, hcases, hconnected⟩
  · refine iff_of_true ?_ fun hreads => absurd hreads hidle
    intro s' hs'
    cases h.symm.trans hs'
    refine ⟨fun hreads => absurd hreads hidle, fun _ => ?_⟩
    rw [CKernelWifi.injected, hhwsim, List.drop_length]
  · have hiff := CKernelWifi.injectsReceived_iff hcases hconnected
    constructor
    · intro hreceived _
      exact hiff.mp ((hreceived s h).1 hreads)
    · intro hsound s' hs'
      cases h.symm.trans hs'
      exact ⟨fun _ => hiff.mpr (hsound hreads), fun hidle => absurd hreads hidle⟩

/-- From every state, whatever the buffer holds: in a run the client injects the frames
it receives, each of them once, and nothing else, exactly when every call receives
soundly. -/
theorem injects_received_iff (libnl : Libnl) (c : Client) (labels : List Label) :
    Lts.Steps (step libnl) (InjectsReceived libnl) c labels ↔
      Lts.Steps (step libnl) (ReceivesSoundly libnl) c labels := by
  apply Lts.steps_congr
  intro c l c' h
  cases step_cases h with
  | thread h =>
    cases h with
    | selected _ hrecv => exact recvFromServer_injects_iff hrecv
    | interrupted | enter | move => exact proceed_injects_iff c _
    | _ => exact Iff.rfl
  | _ => exact Iff.rfl

/-- A frame of twelve bytes in a netlink message. -/
def shortFrame : List UInt8 :=
  [48, 0, 0, 0, 30, 0] ++ List.replicate 10 0 ++ [HwsimCmd.frame.code, 1, 0, 0] ++
    Attributes.layout
      [⟨2, [66, 0, 0, 0, 1, 0], by decide, by decide⟩,
        ⟨3, List.replicate 12 7, by decide, by decide⟩]

/-- The loop that receives comes to its call, and the call finds action on every node. -/
def waits : List Label := [.thread .serverloop .proceed, .thread .serverloop .proceed]

def selects : Label :=
  .thread .serverloop (.selected (.ready (fun _ => true) 1) ⟨0, fun _ => none, fun _ => 0⟩ [])

/-- The server sends one frame and closes the connection: the call that fails injects
the frame once more. -/
theorem injects_received_fails :
    ¬ Lts.Steps (step Libnl.walk) (InjectsReceived Libnl.walk) (init (fun _ => 0) 30)
      (calmStart ⟨5, [236 :: shortFrame], []⟩ ++
        .interfaces (.report (Interfaces.report3 ⟨[119, 108, 97, 110, 48], by decide⟩)) ::
          waits ++ selects :: waits ++ [selects]) := by
  intro h
  have hrun : (Lts.run (step Libnl.walk) (init (fun _ => 0) 30)
      (calmStart ⟨5, [236 :: shortFrame], []⟩ ++
        .interfaces (.report (Interfaces.report3 ⟨[119, 108, 97, 110, 48], by decide⟩)) ::
          waits ++ selects :: waits)).map (fun c =>
            ((c.step Libnl.walk selects).isSome,
              decide (c.wifi.uplink.Reads (.ready (fun _ => true) 1)),
              (c.wifi.uplink.recvSignal 0).valread,
              (c.wifi.recvFromServer Libnl.walk (.ready (fun _ => true) 1)
                ⟨0, fun _ => none, fun _ => 0⟩ []).map fun s => (c.wifi.injected s).length)) =
        some (true, true, -1, some 1) := by
    decide +kernel
  obtain ⟨c, hc, heq⟩ := Option.map_eq_some_iff.mp hrun
  simp only [Prod.mk.injEq, decide_eq_true_eq, Option.map_eq_some_iff] at heq
  obtain ⟨hstep, hreads, hfailed, s, hs, hinjected⟩ := heq
  obtain ⟨c', hc'⟩ := Option.isSome_iff_exists.mp hstep
  have hreceived := (((h.after hc) c' hc').1 s hs).1 hreads
  have hnil := (hreceived.failed (by rw [hfailed]; decide)).1
  rw [hnil, List.length_nil] at hinjected
  exact absurd hinjected Nat.zero_ne_one

end Client

end Vwifi
