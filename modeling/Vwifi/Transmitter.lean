import Vwifi.FrameSize

/-!
# The transmitter of a forwarded message

`process_messages` finds the transmitter and the frame by parsing, and puts the sender
of the frame in the place of the transmitter at an offset that is fixed. It looks
neither at the length of the frame nor at that of the transmitter.
-/

namespace Vwifi

set_option autoImplicit false

open LittleEndian Patch

namespace Memory

theorem read_getElem? (mem : Memory) {size i : Nat} (h : i < size) :
    (mem.read 0 size)[i]? = some (mem i) := by
  simp [read, h]

theorem ofBlock_getElem? {block : List UInt8} {i : Nat} (around : Memory) (h : i < block.length) :
    some (ofBlock block around i) = block[i]? := by
  have hin : (0 : Int) ≤ i ∧ (i : Int) < 0 + block.length := by omega
  have hindex : ((i : Int) - 0).toNat = i := by omega
  rw [ofBlock, write, if_pos hin, hindex, List.getElem?_eq_getElem h]
  exact congrArg some (List.getElem_eq_getD 0).symm

theorem write_read_block {block bytes : List UInt8} {k : Nat} (around : Memory)
    (h : k + bytes.length ≤ block.length) :
    ((ofBlock block around).write k bytes).read 0 block.length = patch block k bytes := by
  apply SameOutside.eq_patch
  · refine ⟨read_length _ _ _, fun i hi => ?_⟩
    by_cases hlt : i < block.length
    · have hout : ¬ ((k : Int) ≤ i ∧ (i : Int) < k + bytes.length) := by omega
      rw [read_getElem? _ hlt, write, if_neg hout, ofBlock_getElem? around hlt]
    · rw [List.getElem?_eq_none (by rw [read_length]; omega), List.getElem?_eq_none (by omega)]
  · apply List.ext_getElem?
    intro i
    by_cases hi : i < bytes.length
    · have hin : (k : Int) ≤ (k + i : Nat) ∧ ((k + i : Nat) : Int) < k + bytes.length := by omega
      have hindex : (((k + i : Nat) : Int) - k).toNat = i := by omega
      rw [List.getElem?_take_of_lt hi, List.getElem?_drop, read_getElem? _ (by omega), write,
        if_pos hin, hindex, List.getElem?_eq_getElem hi]
      exact congrArg some (List.getElem_eq_getD 0).symm
    · rw [List.getElem?_take, if_neg hi, List.getElem?_eq_none (by omega)]

end Memory

/-! ## The message that should be sent -/

/-- The length of the attribute at `p`, with its header. -/
def attrLen (bytes : List UInt8) (p : Nat) : Nat := value ((bytes.drop p).take 2)

/-- The address of the transmitter in the attribute at `p`. -/
def transmitter (bytes : List UInt8) (p : Nat) : List UInt8 :=
  (bytes.drop (p + nlaHdrlen)).take ethAlen

/-- The address of the sender of the frame in the attribute at `q`. -/
def frameSource (bytes : List UInt8) (q : Nat) : List UInt8 :=
  (bytes.drop (q + nlaHdrlen + 10)).take ethAlen

/-- `message` is the message `bytes` with the sender of the frame as its transmitter. The
sender is inside the frame, and parsing `message` gives the same attributes, with
that transmitter and nothing else changed. -/
def Rewritten (libnl : Libnl) (bytes message : List UInt8) : Prop :=
  ∃ table p q, libnl.genlmsgParse hwsimAttrMax bytes = some table ∧
    table HwsimAttr.addrTransmitter.code = some p ∧ table HwsimAttr.frame.code = some q ∧
    nlaHdrlen + ethAlen ≤ attrLen bytes p ∧ nlaHdrlen + 10 + ethAlen ≤ attrLen bytes q ∧
    message = patch bytes (p + nlaHdrlen) (frameSource bytes q) ∧
    libnl.genlmsgParse hwsimAttrMax message = some table ∧
    transmitter message p = frameSource bytes q ∧
    ∀ type r, table type = some r → type ≠ HwsimAttr.addrTransmitter.code →
      (message.drop r).take (attrLen bytes r) = (bytes.drop r).take (attrLen bytes r)

section Rewritten

variable {libnl : Libnl} {bytes : List UInt8} {table : Nat → Option Nat} {p q : Nat}

theorem frameSource_length (hend : q + attrLen bytes q ≤ bytes.length)
    (hframe : nlaHdrlen + 10 + ethAlen ≤ attrLen bytes q) :
    (frameSource bytes q).length = ethAlen := by
  rw [frameSource, List.length_take, List.length_drop]
  omega

/-- Replacing the transmitter changes no other attribute. -/
theorem rewritten_patch (hseq : libnl.Sequential)
    (hparsed : libnl.genlmsgParse hwsimAttrMax bytes = some table)
    (hp : table HwsimAttr.addrTransmitter.code = some p)
    (hq : table HwsimAttr.frame.code = some q)
    (htransmitter : nlaHdrlen + ethAlen ≤ attrLen bytes p)
    (hframe : nlaHdrlen + 10 + ethAlen ≤ attrLen bytes q) :
    Rewritten libnl bytes (patch bytes (p + nlaHdrlen) (frameSource bytes q)) := by
  obtain ⟨_, _, hpend⟩ := libnl.inside _ _ _ _ _ hparsed hp
  obtain ⟨_, _, hqend⟩ := libnl.inside _ _ _ _ _ hparsed hq
  have hpend : p + attrLen bytes p ≤ bytes.length := hpend
  have hlength := frameSource_length hqend hframe
  have hfits : p + nlaHdrlen + (frameSource bytes q).length ≤ bytes.length := by omega
  have hsame := patch_sameOutside hfits
  refine ⟨table, p, q, hparsed, hp, hq, htransmitter, hframe, rfl, ?_, ?_, ?_⟩
  · apply hseq.payload _ _ _ _ _ _ hparsed hp
    apply hsame.mono (Nat.le_refl _)
    rw [hlength]
    exact Nat.le_trans (Nat.le_of_eq (Nat.add_assoc _ _ _)) (Nat.add_le_add_left htransmitter p)
  · have hinside := patch_inside hfits
    rwa [hlength] at hinside
  · intro type r hr hne
    apply hsame.window
    rcases hseq.apart _ _ _ _ _ _ _ hparsed hr hp hne with hbefore | hbehind
    · exact .inl (Nat.le_trans hbefore (Nat.le_add_right _ _))
    · have hbehind : p + attrLen bytes p ≤ r := hbehind
      exact .inr (by omega)

end Rewritten

/-! ## The message that is sent -/

/-- What is sent and does not cost the connection is sent over a socket. -/
theorem Uplink.forward_master {u : Uplink} {power : TPower} {data : List UInt8}
    (h : (u.forward power data).connectedToServer = true) : ∃ d, u.master = some d := by
  rcases hmaster : u.master with _ | d
  · unfold forward sendSignal at h
    rw [hmaster] at h
    cases h
  · exact ⟨d, rfl⟩

namespace CKernelWifi

variable {libnl : Libnl} {s s' : CKernelWifi} {msg : NlMessage} {old : AttrTable}
  {around : Memory} {oks : List Bool} {table : Nat → Option Nat} {p q : Nat}

/-- `process_messages` gets through, and what it sends is the message it should send. -/
def SendsRewritten (libnl : Libnl) (s : CKernelWifi) (msg : NlMessage) (old : AttrTable)
    (around : Memory) (oks : List Bool) : Prop :=
  ∃ s' d, ∃ power : TPower, ∃ message, s.processMessages libnl msg old around oks = some s' ∧
    s.uplink.master = some d ∧
    sentOn d s'.uplink.kernel.log =
      sentOn d s.uplink.kernel.log ++ power.toUInt8 :: message ∧
    Rewritten libnl msg.bytes message

/-- All that is used is there and long enough, and the sender of the frame is the
transmitter already or is written to the place of the transmitter. -/
def Replaceable (libnl : Libnl) (bytes : List UInt8) : Prop :=
  ∃ table p q, libnl.genlmsgParse hwsimAttrMax bytes = some table ∧
    table HwsimAttr.addrTransmitter.code = some p ∧ table HwsimAttr.frame.code = some q ∧
    (table HwsimAttr.flags.code).isSome ∧ (table HwsimAttr.txInfo.code).isSome ∧
    nlaHdrlen + ethAlen ≤ attrLen bytes p ∧ nlaHdrlen + 10 + ethAlen ≤ attrLen bytes q ∧
    (transmitter bytes p = frameSource bytes q ∨ p < 26 ∧
      patch bytes 24 (frameSource bytes q) = patch bytes (p + nlaHdrlen) (frameSource bytes q))

/-- Where the transmitter stands behind the place of a first attribute, what is written
there is no help. -/
theorem transmitter_of_patch {bytes : List UInt8} (hplace : 26 ≤ p)
    (hp : p + nlaHdrlen + ethAlen ≤ bytes.length)
    (hlength : (frameSource bytes q).length = ethAlen)
    (h : patch bytes 24 (frameSource bytes q) =
      patch bytes (p + nlaHdrlen) (frameSource bytes q)) :
    transmitter bytes p = frameSource bytes q := by
  rw [nlaHdrlen, ethAlen] at hp
  rw [ethAlen] at hlength
  have hinside := @patch_inside _ bytes (frameSource bytes q) (p + 4) (by omega)
  have hwindow := (@patch_sameOutside _ bytes (frameSource bytes q) 24 (by omega)).window
    (k := p + 4) (n := 6) (.inr (by omega))
  rw [h] at hwindow
  rw [hlength] at hinside
  exact hwindow.symm.trans hinside

/-- What is sent for a message that passes the checks and was parsed. -/
theorem processMessages_sends (hpasses : Passes libnl s msg old around)
    (h : s.processMessages libnl msg old around oks = some s')
    (hkept : s'.uplink.connectedToServer = true)
    (hparsed : libnl.genlmsgParse hwsimAttrMax msg.bytes = some table)
    (hp : table HwsimAttr.addrTransmitter.code = some p)
    (hq : table HwsimAttr.frame.code = some q) :
    ∃ d, ∃ power : TPower, s.uplink.master = some d ∧
      (table HwsimAttr.flags.code).isSome ∧ (table HwsimAttr.txInfo.code).isSome ∧
      sentOn d s'.uplink.kernel.log = sentOn d s.uplink.kernel.log ++ power.toUInt8 ::
        (updateTransmitter (Memory.ofBlock msg.bytes around) p q).read 0 msg.bytes.length := by
  obtain ⟨src, flags, txInfo, frame, hsrc, hflags, htxInfo, hframe, rfl⟩ :=
    (processMessages_some_iff hpasses).mp h
  obtain ⟨d, hmaster⟩ := Uplink.forward_master hkept
  obtain ⟨power, hsends⟩ := forwardFrame_sends
    (libnl.attrs (Memory.ofBlock msg.bytes around) old) oks.tail hmaster hkept
  rw [msg.begins.attrs libnl around old hparsed] at hsrc hflags htxInfo hframe
  dsimp only at hsrc hflags htxInfo hframe
  rw [hp] at hsrc
  rw [hq] at hframe
  cases hsrc
  cases hframe
  obtain ⟨flags, hflags, _⟩ := Option.map_eq_some_iff.mp hflags
  obtain ⟨txInfo, htxInfo, _⟩ := Option.map_eq_some_iff.mp htxInfo
  exact ⟨d, power, hmaster, by rw [hflags]; rfl, by rw [htxInfo]; rfl, hsends⟩

theorem processMessages_isSome (hpasses : Passes libnl s msg old around)
    (hflags : (libnl.attrs (Memory.ofBlock msg.bytes around) old HwsimAttr.flags.code).isSome)
    (htxInfo : (libnl.attrs (Memory.ofBlock msg.bytes around) old HwsimAttr.txInfo.code).isSome)
    (hframe : (libnl.attrs (Memory.ofBlock msg.bytes around) old HwsimAttr.frame.code).isSome) :
    ∃ s', s.processMessages libnl msg old around oks = some s' := by
  obtain ⟨src, hsrc⟩ := Option.isSome_iff_exists.mp hpasses.transmitter
  obtain ⟨flags, hflags⟩ := Option.isSome_iff_exists.mp hflags
  obtain ⟨txInfo, htxInfo⟩ := Option.isSome_iff_exists.mp htxInfo
  obtain ⟨frame, hframe⟩ := Option.isSome_iff_exists.mp hframe
  exact ⟨_, (processMessages_some_iff hpasses).mpr
    ⟨src, flags, txInfo, frame, hsrc, hflags, htxInfo, hframe, rfl⟩⟩

theorem updateTransmitter_read_block {bytes : List UInt8} (around : Memory)
    (hp : p + nlaHdrlen + ethAlen ≤ bytes.length)
    (hq : q + nlaHdrlen + 10 + ethAlen ≤ bytes.length)
    (hlong : 24 + ethAlen ≤ bytes.length) :
    (updateTransmitter (Memory.ofBlock bytes around) p q).read 0 bytes.length =
      if transmitter bytes p = frameSource bytes q then bytes
      else patch bytes 24 (frameSource bytes q) := by
  have hsrc : ((Memory.ofBlock bytes around).etherAddr (Memory.nlaData p)).octets =
      transmitter bytes p :=
    Memory.ofBlock_read around hp
  have hframe : (framesrc (Memory.ofBlock bytes around) q).octets = frameSource bytes q :=
    Memory.ofBlock_read around hq
  have hlength : (frameSource bytes q).length = ethAlen := by
    rw [← hframe]
    exact (framesrc _ _).length
  unfold updateTransmitter
  split
  · rename_i hne
    have hdiff : transmitter bytes p ≠ frameSource bytes q := by
      intro heq
      rw [← hsrc, ← hframe] at heq
      exact hne (EtherAddr.ext_octets heq.symm)
    rw [if_neg hdiff, hframe]
    exact Memory.write_read_block around (by rw [hlength]; exact hlong)
  · rename_i heq
    rw [not_not] at heq
    rw [if_pos (by rw [← hsrc, ← hframe, heq])]
    exact (@Memory.ofBlock_read bytes 0 bytes.length around (by omega)).trans List.take_length

/-- The bytes that are sent are the right ones when nothing had to be written or it was
written to the right place. -/
theorem updateTransmitter_right_iff (around : Memory)
    (hparsed : libnl.genlmsgParse hwsimAttrMax msg.bytes = some table)
    (hp : table HwsimAttr.addrTransmitter.code = some p)
    (hq : table HwsimAttr.frame.code = some q)
    (htransmitter : nlaHdrlen + ethAlen ≤ attrLen msg.bytes p)
    (hframe : nlaHdrlen + 10 + ethAlen ≤ attrLen msg.bytes q) :
    (updateTransmitter (Memory.ofBlock msg.bytes around) p q).read 0 msg.bytes.length =
        patch msg.bytes (p + nlaHdrlen) (frameSource msg.bytes q) ↔
      transmitter msg.bytes p = frameSource msg.bytes q ∨ p < 26 ∧
        patch msg.bytes 24 (frameSource msg.bytes q) =
          patch msg.bytes (p + nlaHdrlen) (frameSource msg.bytes q) := by
  obtain ⟨hpstart, _, hpend⟩ := libnl.inside _ _ _ _ _ hparsed hp
  obtain ⟨_, _, hqend⟩ := libnl.inside _ _ _ _ _ hparsed hq
  have hpend : p + attrLen msg.bytes p ≤ msg.bytes.length := hpend
  have hqend : q + attrLen msg.bytes q ≤ msg.bytes.length := hqend
  rw [sizeofNlmsghdr, genlHdrlen] at hpstart
  have hlong : 24 + ethAlen ≤ msg.bytes.length := by
    rw [nlaHdrlen] at htransmitter
    omega
  rw [updateTransmitter_read_block around (by omega) (by omega) hlong]
  by_cases heq : transmitter msg.bytes p = frameSource msg.bytes q
  · rw [if_pos heq]
    refine iff_of_true (patch_self ?_).symm (.inl heq)
    rw [frameSource_length hqend hframe]
    exact heq
  · rw [if_neg heq]
    refine ⟨fun h => .inr ⟨?_, h⟩, fun h => (h.resolve_left heq).2⟩
    by_contra hplace
    exact heq (transmitter_of_patch (by omega) (by omega) (frameSource_length hqend hframe) h)

/-- The transmitter is replaced as it should exactly when the message has all that the
code takes for granted. -/
theorem sendsRewritten_iff (hseq : libnl.Sequential) (hpasses : Passes libnl s msg old around)
    (hkept : ∀ s', s.processMessages libnl msg old around oks = some s' →
      s'.uplink.connectedToServer = true) :
    SendsRewritten libnl s msg old around oks ↔ Replaceable libnl msg.bytes := by
  constructor
  · rintro ⟨s', d', power', message, hhandled, hmaster', hsent, table, p, q, hparsed, hp, hq,
      htransmitter, hframe, rfl, _, _, _⟩
    obtain ⟨d, power, hmaster, hflags, htxInfo, hsends⟩ :=
      processMessages_sends hpasses hhandled (hkept s' hhandled) hparsed hp hq
    cases hmaster.symm.trans hmaster'
    rw [hsent] at hsends
    have hmessage := (List.cons.inj (List.append_cancel_left hsends)).2
    refine ⟨table, p, q, hparsed, hp, hq, hflags, htxInfo, htransmitter, hframe, ?_⟩
    exact (updateTransmitter_right_iff around hparsed hp hq htransmitter hframe).mp hmessage.symm
  · rintro ⟨table, p, q, hparsed, hp, hq, hflags, htxInfo, htransmitter, hframe, hplace⟩
    have hattrs := msg.begins.attrs libnl around old hparsed
    obtain ⟨s', hhandled⟩ := @processMessages_isSome libnl s msg old around oks hpasses
      (by rw [hattrs, Option.isSome_map]; exact hflags)
      (by rw [hattrs, Option.isSome_map]; exact htxInfo)
      (by rw [hattrs, Option.isSome_map, hq]; rfl)
    obtain ⟨d, power, hmaster, _, _, hsends⟩ :=
      processMessages_sends hpasses hhandled (hkept s' hhandled) hparsed hp hq
    refine ⟨s', d, power, _, hhandled, hmaster, hsends, ?_⟩
    have hmessage := (@updateTransmitter_right_iff libnl msg table p q around hparsed hp hq
      htransmitter hframe).mpr hplace
    have hrewritten := rewritten_patch hseq hparsed hp hq htransmitter hframe
    rwa [← hmessage] at hrewritten

theorem readyClient_connected {msg : NlMessage}
    (h : (readyClient.processMessages Libnl.walk msg (fun _ => none) (fun _ => 0) []).map
      (fun s => s.uplink.connectedToServer) = some true) :
    ∀ s', readyClient.processMessages Libnl.walk msg (fun _ => none) (fun _ => 0) [] = some s' →
      s'.uplink.connectedToServer = true := by
  intro s' hs'
  rw [hs'] at h
  exact Option.some.inj h

theorem sendsRewritten_small :
    SendsRewritten Libnl.walk readyClient smallMessage (fun _ => none) (fun _ => 0) [] := by
  have hpasses : Passes Libnl.walk readyClient smallMessage (fun _ => none) (fun _ => 0) :=
    ⟨rfl, by decide +kernel, by decide +kernel, by decide +kernel⟩
  refine (sendsRewritten_iff Libnl.walk_sequential hpasses
    (readyClient_connected (by decide +kernel))).mpr ?_
  have hparsed : (Libnl.walk.genlmsgParse hwsimAttrMax smallMessage.bytes).isSome := by
    decide +kernel
  refine ⟨(Libnl.walk.genlmsgParse hwsimAttrMax smallMessage.bytes).get hparsed, 20, 32,
    (Option.some_get hparsed).symm, ?_⟩
  decide +kernel +revert

end CKernelWifi

/-- A frame that clears the other side to send: it has ten bytes and no sender. -/
def clearToSend : NlMessage where
  bytes := frameHeaders 80 ++
    Attributes.layout (frameAttributes [196, 0, 0, 0, 66, 0, 0, 0, 1, 0] (by decide))
  header := by decide +kernel
  complete := by decide +kernel
  bounded := by decide +kernel

/-- The padding and the header of the next attribute become the transmitter. -/
theorem sendsRewritten_fails :
    CKernelWifi.Passes Libnl.walk readyClient clearToSend (fun _ => none) (fun _ => 0) ∧
      (readyClient.processMessages Libnl.walk clearToSend (fun _ => none) (fun _ => 0) []).map
        (fun s => ((sentOn 5 s.uplink.kernel.log).drop 25).take 6) = some [0, 0, 8, 0, 4, 0] ∧
      ¬ CKernelWifi.SendsRewritten Libnl.walk readyClient clearToSend (fun _ => none)
        (fun _ => 0) [] := by
  refine ⟨⟨rfl, by decide +kernel, by decide +kernel, by decide +kernel⟩, by decide +kernel, ?_⟩
  rintro ⟨_, _, _, _, _, _, _, table, p, q, hparsed, _, hq, _, hframe, _⟩
  have hplace : (Libnl.walk.genlmsgParse hwsimAttrMax clearToSend.bytes).bind
      (fun table => table HwsimAttr.frame.code) = some 32 := by decide +kernel
  rw [hparsed] at hplace
  cases hq.symm.trans hplace
  revert hframe
  decide +kernel

end Vwifi
