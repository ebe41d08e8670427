import Vwifi.KernelWifiSpec
import Vwifi.Visit

/-!
# The size of a forwarded frame

What `process_messages` sends is compared with what the server accepts: the client
sends the whole netlink message, and the server compares its length with the bound
of the frame in it.
-/

namespace Vwifi

set_option autoImplicit false

open LittleEndian

/-! ## What the client sends -/

namespace Uplink

theorem forward_sends {u : Uplink} {power : TPower} {data : List UInt8} {d : TDescriptor}
    (hmaster : u.master = some d) (h : (u.forward power data).connectedToServer = true) :
    sentOn d (u.forward power data).kernel.log =
      sentOn d u.kernel.log ++ power.toUInt8 :: data := by
  unfold forward sendSignal at h ⊢
  rw [hmaster] at h ⊢
  obtain ⟨acts, hcases, hwrites⟩ := CWifi.sendSignalWithSocket_cases u.kernel d power data
  dsimp only at h ⊢
  split at h
  · exact absurd h Bool.false_ne_true
  · rename_i hsent
    rw [if_neg hsent]
    rw [Option.isSome_iff_ne_none.mpr hsent] at hcases
    cases hcases
    dsimp only
    rw [hwrites.log, sentOn_append]
    simp [sentStep]

end Uplink

namespace CKernelWifi

variable {libnl : Libnl} {s s' : CKernelWifi} {msg : NlMessage}

/-- `process_messages` sends the bytes `sent` to the server for the message `msg`, and
does not find the connection lost. -/
structure Forwards (libnl : Libnl) (s : CKernelWifi) (msg : NlMessage) (sent : List UInt8)
    (s' : CKernelWifi) : Prop where
  handled : ∃ old around oks, s.processMessages libnl msg old around oks = some s'
  sends : ∃ d, s.uplink.master = some d ∧
    sentOn d s'.uplink.kernel.log = sentOn d s.uplink.kernel.log ++ sent
  nonempty : sent ≠ []
  connected : s'.uplink.connectedToServer = true

theorem updateTransmitter_read (mem : Memory) (src frame : Int) :
    (updateTransmitter mem src frame).read 0 4 = mem.read 0 4 := by
  unfold updateTransmitter
  split
  · exact mem.write_read _ (by omega)
  · rfl

theorem forwardFrame_sends {mem : Memory} {msgLen : Nat} {src frame : Int} {d : TDescriptor}
    (attrs : AttrTable) (oks : List Bool) (hmaster : s.uplink.master = some d)
    (h : (s.forwardFrame mem msgLen attrs src frame oks).uplink.connectedToServer = true) :
    ∃ power : TPower,
      sentOn d (s.forwardFrame mem msgLen attrs src frame oks).uplink.kernel.log =
        sentOn d s.uplink.kernel.log ++
          power.toUInt8 :: (updateTransmitter mem src frame).read 0 msgLen := by
  have hsends := @Uplink.forward_sends
    { s.uplink with kernel := s.uplink.kernel.record [.use 16 (mem.nlaLen frame).toNat] } _ _ d
    hmaster h
  have hrecord : sentOn d (s.uplink.kernel.record [.use 16 (mem.nlaLen frame).toNat]).log =
      sentOn d s.uplink.kernel.log := by
    apply sentOn_reads
    intro a ha
    rw [List.mem_singleton.mp ha]
    rfl
  rw [hrecord] at hsends
  exact ⟨s.transmitPower (framesrc mem frame), hsends⟩

/-- The message that is sent has the length of the one that was handed over, in its
header too. -/
theorem Forwards.message {sent : List UInt8} (h : Forwards libnl s msg sent s') :
    ∃ (power : TPower) (message : List UInt8), sent = power.toUInt8 :: message ∧
      message.length = msg.bytes.length ∧ CWifi.nlmsgLen message = message.length := by
  obtain ⟨⟨old, around, oks, hhandled⟩, ⟨d, hmaster, hsent⟩, hnonempty, hconnected⟩ := h
  by_cases hpasses : Passes libnl s msg old around
  · obtain ⟨src, _, _, frame, _, _, _, _, rfl⟩ := (processMessages_some_iff hpasses).mp hhandled
    obtain ⟨power, hsends⟩ := forwardFrame_sends
      (libnl.attrs (Memory.ofBlock msg.bytes around) old) oks.tail hmaster hconnected
    refine ⟨power, _, List.append_cancel_left (hsent.symm.trans hsends), ?_, ?_⟩
    · exact Memory.read_length _ _ _
    · have hcomplete := msg.complete
      have hbounded := msg.bounded
      rw [sizeofNlmsghdr] at hcomplete
      -- the patch of the address leaves the length as it is
      have hfour : ((updateTransmitter (Memory.ofBlock msg.bytes around) src frame).read 0
          msg.bytes.length).take 4 = msg.bytes.take 4 := by
        rw [Memory.read_take _ _ (by omega), updateTransmitter_read]
        exact @Memory.ofBlock_read msg.bytes 0 4 around (by omega)
      rw [CWifi.nlmsgLen_of_lt (by rw [hfour, msg.header]; omega), hfour, msg.header,
        Memory.read_length]
  · rw [processMessages_idle hpasses] at hhandled
    cases hhandled
    exact absurd (List.self_eq_append_right.mp hsent) hnonempty

end CKernelWifi

/-! ## What the server makes of it -/

namespace CWifi

/-- `RecvSignalWithSocket` returns the signal that was sent. -/
def Accepts (k : Kernel) (d : TDescriptor) (power : TPower) (buffer : CDynBuffer)
    (sent : List UInt8) : Prop :=
  let r := recvSignalWithSocket k d power buffer
  0 < r.valread ∧ r.power.toUInt8 :: r.buffer.buffer.take r.valread.toNat = sent

section Accepts

variable {k : Kernel} {d : TDescriptor} {power : TPower} {buffer : CDynBuffer} {p : TPower}
  {message rest : List UInt8}

theorem recvSignal_fits (hheader : nlmsgLen message = message.length)
    (hcomplete : sizeofNlmsghdr ≤ message.length) (hfits : (message.length : Int) ≤ mtu)
    (harrived : k.supply d = p.toUInt8 :: message ++ rest) :
    Accepts k d power buffer (p.toUInt8 :: message) := by
  obtain ⟨hvalread, hpower, hdata, _⟩ :=
    @recvSignal_frame k d power buffer ⟨p, message, hheader, hcomplete, hfits⟩ rest harrived
  rw [sizeofNlmsghdr] at hcomplete
  refine ⟨?_, ?_⟩
  · rw [hvalread]
    dsimp only
    omega
  · rw [hdata, hpower]

theorem recvSignal_oversize (hheader : nlmsgLen message = message.length)
    (hcomplete : sizeofNlmsghdr ≤ message.length) (hlong : mtu < message.length)
    (harrived : k.supply d = p.toUInt8 :: message ++ rest) :
    (recvSignalWithSocket k d power buffer).valread = socketError := by
  cases recvSignal_cases k d power buffer with
  | failed h _ => exact h
  | stored b arrived supply _ valread bounded _ _ _ _ =>
    rw [List.cons_append, supply] at harrived
    obtain ⟨_, rfl⟩ := List.cons.inj harrived
    rw [sizeofNlmsghdr] at hcomplete
    have hlen : nlmsgLen (message ++ rest) = message.length := by
      rw [← hheader]
      apply nlmsgLen_congr
      exact List.take_append_of_le_length (by omega)
    omega

end Accepts

end CWifi

namespace Pass

/-- The round at index `i` removes the client that is there. -/
def Drops (medium : Medium) (srcIsSpy : Bool) (p : Pass) (i : TIndex) : Prop :=
  ∃ p', p.visit medium srcIsSpy i = some (p', i) ∧
    p'.src.getNumberClient + 1 = p.src.getNumberClient

theorem drops_iff {medium : Medium} {srcIsSpy : Bool} {r q : Registry} {g : Globals}
    {before after : List Entry} {e : Entry} (h : r.entries = before ++ e :: after)
    (henabled : e.enabled = true) (hready : ready g e = true) :
    Drops medium srcIsSpy ⟨r.server, q.server, g⟩ before.length ↔ (received g e).valread ≤ 0 := by
  obtain ⟨r', q', g', i', hvisit, hcases⟩ :=
    @visit_cases medium srcIsSpy r q g before after e h
  unfold Drops
  rw [hvisit]
  cases hcases with
  | disabled hdisabled =>
    rw [henabled] at hdisabled
    cases hdisabled
  | idle _ hidle =>
    rw [hready] at hidle
    cases hidle
  | unreadable _ _ hfail =>
    refine iff_of_true ⟨_, rfl, ?_⟩ hfail
    rw [Registry.server_getNumberClient, Registry.server_getNumberClient, h]
    simp only [Registry.retire, List.length_append, List.length_cons]
    exact Nat.add_assoc _ _ _
  | forwarded _ _ hread _ _ _ _ =>
    refine iff_of_false ?_ hread
    rintro ⟨p', heq, _⟩
    exact Nat.succ_ne_self _ (Prod.mk.inj (Option.some.inj heq)).2

end Pass

/-- The whole netlink message is not longer than the bound of a frame. -/
def Fits (attributes : List Attributes.Attribute) : Prop :=
  ((sizeofNlmsghdr + genlHdrlen +
        (attributes.map fun a => Attributes.align a.length).sum : Nat) : Int) ≤
    mtu

instance (attributes : List Attributes.Attribute) : Decidable (Fits attributes) :=
  inferInstanceAs (Decidable (_ ≤ _))

/-- The message consists of the two headers and the attributes. -/
def NlMessage.LaidOut (msg : NlMessage) (attributes : List Attributes.Attribute) : Prop :=
  ∃ headers, headers.length = sizeofNlmsghdr + genlHdrlen ∧
    msg.bytes = headers ++ Attributes.layout attributes

theorem NlMessage.LaidOut.length {msg : NlMessage} {attributes : List Attributes.Attribute}
    (h : msg.LaidOut attributes) : (msg.bytes.length : Int) ≤ mtu ↔ Fits attributes := by
  obtain ⟨headers, hheaders, hbytes⟩ := h
  rw [Fits, hbytes, List.length_append, hheaders, Attributes.layout_length]

/-- What the client forwards is accepted by the server exactly when the whole message,
with the attributes around the frame, fits; otherwise the server drops the client. -/
theorem forwarded_accepted_iff {libnl : Libnl} {s s' : CKernelWifi} {msg : NlMessage}
    {attributes : List Attributes.Attribute} {sent : List UInt8} (hlaid : msg.LaidOut attributes)
    (hforwards : CKernelWifi.Forwards libnl s msg sent s') :
    (∀ k d power buffer rest, k.supply d = sent ++ rest →
      (CWifi.Accepts k d power buffer sent ↔ Fits attributes)) ∧
    (∀ medium srcIsSpy r q g before e after rest, Registry.entries r = before ++ e :: after →
      e.enabled = true → Pass.ready g e = true → g.kernel.supply e.descriptor = sent ++ rest →
        (Pass.Drops medium srcIsSpy ⟨r.server, Registry.server q, g⟩ before.length ↔
          ¬ Fits attributes)) := by
  obtain ⟨power, message, rfl, hlength, hheader⟩ := hforwards.message
  have hcomplete : sizeofNlmsghdr ≤ message.length := hlength ▸ msg.complete
  have hfits : (message.length : Int) ≤ mtu ↔ Fits attributes := by
    rw [hlength]
    exact hlaid.length
  rw [← hfits]
  constructor
  · intro k d p buffer rest harrived
    constructor
    · intro haccepts
      by_contra hlong
      have hfail := @CWifi.recvSignal_oversize k d p buffer power message rest hheader hcomplete
        (Int.not_le.mp hlong) harrived
      have hpositive := haccepts.1
      rw [hfail] at hpositive
      exact absurd hpositive (by decide)
    · intro hle
      exact CWifi.recvSignal_fits hheader hcomplete hle harrived
  · intro medium srcIsSpy r q g before e after rest hentries henabled hready harrived
    rw [Pass.drops_iff hentries henabled hready]
    constructor
    · intro hfail hle
      have hpositive := (@CWifi.recvSignal_fits _ _ 0 g.buffer power message rest hheader hcomplete
        hle harrived).1
      exact absurd hfail (Int.not_le.mpr hpositive)
    · intro hlong
      have hfail := @CWifi.recvSignal_oversize _ _ 0 g.buffer power message rest hheader hcomplete
        (Int.not_le.mp hlong) harrived
      exact le_of_eq_of_le hfail (by decide)

/-! ## A frame that fits and one that does not -/

/-- What the driver tells about a frame. -/
def frameAttributes (frame : List UInt8) (h : Attributes.headerSize + frame.length < 2 ^ 16) :
    List Attributes.Attribute :=
  [⟨HwsimAttr.addrTransmitter.code, [66, 0, 0, 0, 0, 0], by decide, by decide⟩,
    ⟨HwsimAttr.frame.code, frame, by decide, h⟩,
    ⟨HwsimAttr.flags.code, List.replicate 4 0, by decide, by decide⟩,
    ⟨HwsimAttr.txInfo.code, List.replicate 8 0, by decide, by decide⟩,
    ⟨HwsimAttr.cookie.code, List.replicate 8 0, by decide, by decide⟩]

/-- The two headers of a message for the family 30. -/
def frameHeaders (size : Nat) : List UInt8 :=
  image 4 size ++ [30, 0] ++ List.replicate 10 0 ++ [HwsimCmd.frame.code, 1, 0, 0]

def smallMessage : NlMessage where
  bytes := frameHeaders 92 ++
    Attributes.layout (frameAttributes (List.replicate 24 7) (by decide))
  header := by decide +kernel
  complete := by decide +kernel
  bounded := by decide +kernel

/-- The message of a frame of the greatest length. -/
def longMessage : NlMessage where
  bytes := frameHeaders 2420 ++
    Attributes.layout (frameAttributes (List.replicate 2352 7) (by decide +kernel))
  header := by decide +kernel
  complete := by decide +kernel
  bounded := by decide +kernel

/-- A client whose connection takes everything. -/
def readyClient : CKernelWifi where
  hwsim := ⟨30, true, []⟩
  uplink := ⟨CSelect.init.addNode 5, some 5, true, ⟨[]⟩,
    ⟨fun _ => [], fun _ => [1, 4096], [], fun _ => 0, [.accept 5]⟩⟩
  interfaces := Interfaces.init
  beingInitialized := false
  beingStarted := false

/-- A server to which the bytes `sent` arrive in one piece. -/
def servingKernel (sent : List UInt8) : Kernel :=
  ⟨fun _ => [sent], fun _ => [], [], fun _ => 0, []⟩

theorem servingKernel_supply {sent : List UInt8} (h : sent ≠ []) (d : TDescriptor) :
    (servingKernel sent).supply d = sent ++ [] := by
  have hne : ∀ c ∈ [sent], c ≠ [] := by
    intro c hc
    rwa [List.mem_singleton.mp hc]
  exact Segmented.supply_eq_flatten hne

theorem readyClient_forwards {msg : NlMessage} {n : Nat}
    (h : (readyClient.processMessages Libnl.walk msg (fun _ => none) (fun _ => 0) []).map
      (fun s => (s.uplink.connectedToServer, (sentOn 5 s.uplink.kernel.log).length)) =
        some (true, n + 1)) :
    ∃ sent s, CKernelWifi.Forwards Libnl.walk readyClient msg sent s := by
  obtain ⟨s, hs, heq⟩ := Option.map_eq_some_iff.mp h
  obtain ⟨hconnected, hlength⟩ := Prod.mk.inj heq
  refine ⟨sentOn 5 s.uplink.kernel.log, s, ⟨_, _, _, hs⟩, ⟨5, rfl, rfl⟩, ?_, hconnected⟩
  exact List.ne_nil_of_length_eq_add_one hlength

theorem forwarded_accepted_small :
    ∃ sent s, CKernelWifi.Forwards Libnl.walk readyClient smallMessage sent s ∧
      CWifi.Accepts (servingKernel sent) 7 0 ⟨[]⟩ sent := by
  obtain ⟨sent, s, h⟩ := @readyClient_forwards smallMessage 92 (by decide +kernel)
  refine ⟨sent, s, h, ?_⟩
  have hlaid : smallMessage.LaidOut (frameAttributes (List.replicate 24 7) (by decide)) :=
    ⟨_, by decide, rfl⟩
  have hiff := (forwarded_accepted_iff hlaid h).1 _ 7 0 ⟨[]⟩ [] (servingKernel_supply h.nonempty 7)
  exact hiff.mpr (by decide)

/-- A frame of 2352 bytes is forwarded, and the server does not accept it. -/
theorem forwarded_accepted_fails :
    longMessage.LaidOut (frameAttributes (List.replicate 2352 7) (by decide +kernel)) ∧
      ∃ sent s, CKernelWifi.Forwards Libnl.walk readyClient longMessage sent s ∧
        ¬ CWifi.Accepts (servingKernel sent) 7 0 ⟨[]⟩ sent := by
  refine ⟨⟨_, by decide, rfl⟩, ?_⟩
  obtain ⟨sent, s, h⟩ := @readyClient_forwards longMessage 2420 (by decide +kernel)
  refine ⟨sent, s, h, fun haccepts => ?_⟩
  obtain ⟨power, message, rfl, hlength, hheader⟩ := h.message
  have hlong : message.length = 2420 := hlength.trans (by decide +kernel)
  have hfail := @CWifi.recvSignal_oversize (servingKernel (power.toUInt8 :: message)) 7 0 ⟨[]⟩ power
    message [] hheader (by rw [hlong]; decide) (by rw [hlong]; decide)
    (servingKernel_supply h.nonempty 7)
  have hpositive := haccepts.1
  rw [hfail] at hpositive
  exact absurd hpositive (by decide)

end Vwifi
