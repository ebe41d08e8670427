import Vwifi.Frequency
import Vwifi.Cloning
import Vwifi.Transmitter

/-!
# A frame on its way from one guest to another

What the driver of one guest hands over is read by the client of another one as the
same frame on the same frequency, although the transmitter has been replaced on the
way. Only the level is what the server makes of it.
-/

namespace Vwifi

set_option autoImplicit false

open LittleEndian

/-- What is in the attribute for the frequency, if there is one. -/
def frequencyOf (message : List UInt8) : Option Nat → TFrequency
  | none => 0
  | some p => UInt32.ofNat (value ((message.drop (p + nlaHdrlen)).take 4))

/-- The message tells every client of the frame `data` on the frequency `freq`. -/
structure CarriesFrame (libnl : Libnl) (message data : List UInt8) (freq : TFrequency) : Prop where
  header : value (message.take 4) = message.length
  complete : sizeofNlmsghdr < message.length
  bounded : (message.length : Int) ≤ mtu
  command : message[sizeofNlmsghdr]? = some HwsimCmd.frame.code
  attributes : ∃ table p q, libnl.genlmsgParse hwsimAttrMax message = some table ∧
    table HwsimAttr.addrTransmitter.code = some p ∧ table HwsimAttr.frame.code = some q ∧
    data = (message.drop (q + nlaHdrlen)).take (attrLen message q - nlaHdrlen) ∧
    freq = frequencyOf message (table HwsimAttr.freq.code) ∧
    ∀ r, table HwsimAttr.freq.code = some r → nlaHdrlen + 4 ≤ attrLen message r

theorem CarriesFrame.nlmsgLen {libnl : Libnl} {message data : List UInt8} {freq : TFrequency}
    (h : CarriesFrame libnl message data freq) : CWifi.nlmsgLen message = message.length := by
  have hbounded := h.bounded
  rw [mtu] at hbounded
  have hsmall : value (message.take 4) < 2 ^ 31 := by
    rw [h.header]
    omega
  rw [CWifi.nlmsgLen_of_lt hsmall, h.header]

/-- A message that carries a frame is one for the framing of the stream. -/
def CarriesFrame.framed {libnl : Libnl} {message data : List UInt8} {freq : TFrequency}
    (h : CarriesFrame libnl message data freq) (level : TPower) : Frame where
  power := level
  message := message
  header := h.nlmsgLen
  complete := Nat.le_of_lt h.complete
  bounded := h.bounded

namespace CKernelWifi

variable {libnl : Libnl} {message data : List UInt8} {freq : TFrequency}

/-! ## Receiving -/

section Receiving

variable {block : List UInt8}

theorem frequency_begins (hbegins : Begins block message) {table : Nat → Option Nat}
    (hparsed : libnl.genlmsgParse hwsimAttrMax message = some table)
    (hlong : ∀ r, table HwsimAttr.freq.code = some r → nlaHdrlen + 4 ≤ attrLen message r)
    (around : Memory) (old : AttrTable) :
    frequency (Memory.ofBlock block around) (libnl.attrs (Memory.ofBlock block around) old) =
      frequencyOf message (table HwsimAttr.freq.code) := by
  rw [frequency, hbegins.attrs libnl around old hparsed]
  cases hfreq : table HwsimAttr.freq.code with
  | none =>
    dsimp only
    rw [hfreq]
    rfl
  | some r =>
    obtain ⟨_, _, hend⟩ := libnl.inside _ _ _ _ _ hparsed hfreq
    have hlen : nlaHdrlen + 4 ≤ value ((message.drop r).take 2) := hlong r hfreq
    have hread := hbegins.read around (show r + nlaHdrlen + 4 ≤ message.length by omega)
    dsimp only
    rw [hfreq, frequencyOf, ← hread]
    rfl

/-- A buffer that begins with the message is decoded to its frame. -/
theorem decode_carries (hbegins : Begins block message)
    (hcarries : CarriesFrame libnl message data freq) (around : Memory) (old : AttrTable) :
    ∃ address size, decode libnl (Memory.ofBlock block around) old = .frame address size freq ∧
      (Memory.ofBlock block around).read address size.toNat = data := by
  obtain ⟨_, hlong, _, hcommand, table, p, q, hparsed, hp, hq, rfl, rfl, hfreq⟩ := hcarries
  have hattrs := hbegins.attrs libnl around old hparsed
  have hcmd : (Memory.ofBlock block around).cmd = HwsimCmd.frame.code := by
    have hsame := hbegins.cmd around hlong
    rw [hcommand] at hsame
    exact (Option.some.inj hsame).symm
  have hfrequency := frequency_begins hbegins hparsed hfreq around old
  obtain ⟨hsize, hend⟩ := hbegins.nlaLen around hparsed hq
  refine ⟨Memory.nlaData q, (Memory.ofBlock block around).nlaLen q, ?_, ?_⟩
  · rw [decode, if_neg (not_not.mpr hcmd)]
    dsimp only
    rw [hfrequency, hattrs]
    dsimp only
    rw [hp, hq]
    rfl
  · rw [hsize, Int.toNat_natCast]
    exact hbegins.read around hend

variable {t : CKernelWifi} {level : TPower} {rest : List UInt8} {sel : CSelect.Selection}

theorem recvFromServer_reads (hreads : t.uplink.Reads sel) (m : Unwritten) (oks : List Bool) :
    t.recvFromServer libnl sel m oks =
      ({ t with uplink := { t.uplink with scheduler := (t.uplink.scheduler.wait sel).2 } } :
        CKernelWifi).handleSignal libnl (t.uplink.recvSignal m.power) m.attrs m.around oks := by
  obtain ⟨hwait, haction⟩ := hreads
  unfold recvFromServer
  dsimp only
  rw [if_neg hwait, haction]
  rfl

/-- `recv_from_server` takes the message at the head of the stream, and hands its frame
to every radio, at the level in front of the message. -/
theorem recvFromServer_carries (hcarries : CarriesFrame libnl message data freq)
    (hsupply : t.uplink.supply = level.toUInt8 :: message ++ rest) (hreads : t.uplink.Reads sel)
    (m : Unwritten) (oks : List Bool) :
    ∃ t', t.recvFromServer libnl sel m oks = some t' ∧
      t.injected t' =
        Hwsim.clones t.hwsim.familyId data rateIdx level.toInt freq t.radios oks ∧
      t'.uplink.supply = rest ∧ t'.uplink.connectedToServer = t.uplink.connectedToServer := by
  rw [recvFromServer_reads hreads]
  obtain ⟨d, hmaster⟩ : ∃ d, t.uplink.master = some d := by
    cases hmaster : t.uplink.master with
    | none =>
      rw [Uplink.supply, hmaster] at hsupply
      cases hsupply
    | some d => exact ⟨d, rfl⟩
  have hstream : t.uplink.kernel.supply d = (hcarries.framed level).bytes ++ rest := by
    rw [Uplink.supply, hmaster] at hsupply
    exact hsupply
  have hr : t.uplink.recvSignal m.power =
      CWifi.recvSignalWithSocket t.uplink.kernel d m.power t.uplink.buffer := by
    rw [Uplink.recvSignal, hmaster]
  obtain ⟨hvalread, hpower, hstored, hleft⟩ :=
    @CWifi.recvSignal_frame t.uplink.kernel d m.power t.uplink.buffer _ _ hstream
  rw [← hr] at hvalread hpower hstored hleft
  generalize t.uplink.recvSignal m.power = r at hvalread hpower hstored hleft
  have hmessage : (hcarries.framed level).message = message := rfl
  rw [hmessage] at hvalread hstored
  rw [hvalread, Int.toNat_natCast] at hstored
  have hbegins : Begins r.buffer.buffer message :=
    ⟨hstored, hcarries.header, Nat.le_of_lt hcarries.complete⟩
  obtain ⟨address, size, hdecode, hdata⟩ := decode_carries hbegins hcarries m.around m.attrs
  have hne : r.valread ≠ socketError := by
    rw [hvalread, socketError]
    omega
  unfold handleSignal
  dsimp only
  rw [Uplink.received_buffer, hdecode]
  refine ⟨_, rfl, ?_, ?_, ?_⟩
  · rw [injected]
    dsimp only
    rw [Hwsim.cloneFrame_eq, List.drop_left, hdata, hpower]
    rfl
  · rw [Uplink.received, if_neg hne, Uplink.supply]
    dsimp only
    rw [hmaster]
    exact hleft
  · rw [Uplink.received, if_neg hne]

end Receiving

end CKernelWifi

/-! ## Replacing the transmitter -/

section Rewritten

open Patch

variable {libnl : Libnl} {bytes message data : List UInt8} {freq : TFrequency}

theorem Rewritten.length (h : Rewritten libnl bytes message) : message.length = bytes.length := by
  obtain ⟨table, p, q, hparsed, hp, hq, _, hframe, rfl, _⟩ := h
  obtain ⟨_, _, hpend⟩ := libnl.inside _ _ _ _ _ hparsed hp
  obtain ⟨_, _, hqend⟩ := libnl.inside _ _ _ _ _ hparsed hq
  have hpend : p + attrLen bytes p ≤ bytes.length := hpend
  have hlength := frameSource_length hqend hframe
  exact patch_length (by omega)

/-- The message with another transmitter carries the same frame. -/
theorem Rewritten.carries (h : Rewritten libnl bytes message)
    (hcarries : CarriesFrame libnl bytes data freq) : CarriesFrame libnl message data freq := by
  obtain ⟨table, p, q, hparsed, hp, hq, htransmitter, hframe, hmessage, hparsed', _, hothers⟩ := h
  obtain ⟨hheader, hlong, hbounded, hcommand, table', p', q', htable, hp', hq', hdata, hfreq,
    hroom⟩ := hcarries
  cases hparsed.symm.trans htable
  cases hp.symm.trans hp'
  cases hq.symm.trans hq'
  obtain ⟨hstart, _, hpend⟩ := libnl.inside _ _ _ _ _ hparsed hp
  obtain ⟨_, _, hqend⟩ := libnl.inside _ _ _ _ _ hparsed hq
  have hpend : p + attrLen bytes p ≤ bytes.length := hpend
  have hlength := frameSource_length hqend hframe
  have hfits : p + nlaHdrlen + (frameSource bytes q).length ≤ bytes.length := by omega
  have hsame : SameOutside (p + nlaHdrlen) (p + nlaHdrlen + (frameSource bytes q).length) bytes
      message := by
    rw [hmessage]
    exact patch_sameOutside hfits
  rw [sizeofNlmsghdr, genlHdrlen] at hstart
  -- an attribute other than the transmitter is read as before
  have hsize : ∀ {type r}, table type = some r → type ≠ HwsimAttr.addrTransmitter.code →
      attrLen message r = attrLen bytes r := by
    intro type r hr hne
    obtain ⟨_, hhead, _⟩ := libnl.inside _ _ _ _ _ hparsed hr
    have hhead : nlaHdrlen ≤ attrLen bytes r := hhead
    rw [nlaHdrlen] at hhead
    have hpart := window_part (hothers type r hr hne) (show 0 + 2 ≤ attrLen bytes r by omega)
    rw [attrLen, attrLen]
    exact congrArg value hpart
  have hframeNe : HwsimAttr.frame.code ≠ HwsimAttr.addrTransmitter.code := by decide
  have hfreqNe : HwsimAttr.freq.code ≠ HwsimAttr.addrTransmitter.code := by decide
  refine ⟨?_, ?_, ?_, ?_, table, p, q, hparsed', hp, hq, ?_, ?_, ?_⟩
  · have hwindow := @SameOutside.window _ _ _ _ _ 0 4 hsame (.inl (by omega))
    rw [List.drop_zero, List.drop_zero] at hwindow
    rw [hwindow, hsame.length, hheader]
  · rw [hsame.length]
    exact hlong
  · rw [hsame.length]
    exact hbounded
  · rw [hsame.same _ (.inl (by rw [sizeofNlmsghdr]; omega))]
    exact hcommand
  · rw [hdata, hsize hq hframeNe]
    rw [nlaHdrlen] at hframe ⊢
    exact (window_part (hothers _ q hq hframeNe) (by omega)).symm
  · rw [hfreq]
    cases hr : table HwsimAttr.freq.code with
    | none => rfl
    | some r =>
      have hpart := window_part (hothers _ r hr hfreqNe) (hroom r hr)
      rw [frequencyOf, frequencyOf, hpart]
  · intro r hr
    rw [hsize hr hfreqNe]
    exact hroom r hr

end Rewritten

namespace Memory

/-- The memory is known by what is in the block and around it. -/
theorem eq_ofBlock {mem around : Memory} {block : List UInt8}
    (hread : mem.read 0 block.length = block)
    (hout : ∀ a, ¬ (0 ≤ a ∧ a < (block.length : Int)) → mem a = around a) :
    mem = ofBlock block around := by
  funext a
  by_cases hin : 0 ≤ a ∧ a < (block.length : Int)
  · obtain ⟨i, rfl⟩ := Int.eq_ofNat_of_zero_le hin.1
    have hi : i < block.length := Int.ofNat_lt.mp hin.2
    have hget := read_getElem? mem hi
    rw [hread, ← ofBlock_getElem? around hi] at hget
    exact (Option.some.inj hget).symm
  · rw [hout a hin, ofBlock, write, if_neg]
    omega

end Memory

/-! ## Sending -/

/-- The first bytes of the attribute at `p`. -/
def payload (bytes : List UInt8) (p size : Nat) : List UInt8 :=
  (bytes.drop (p + nlaHdrlen)).take size

/-- Of an attribute that is absent or too short the cookie is 0. -/
def cookieOf (bytes : List UInt8) : Option Nat → UInt64
  | none => 0
  | some p =>
    if nlaHdrlen + 8 ≤ attrLen bytes p then UInt64.ofNat (value (payload bytes p 8)) else 0

/-- The radio that has transmitted the message. -/
def TransmittedBy (libnl : Libnl) (bytes : List UInt8) (src : EtherAddr) : Prop :=
  ∃ table p, libnl.genlmsgParse hwsimAttrMax bytes = some table ∧
    table HwsimAttr.addrTransmitter.code = some p ∧ src.octets = transmitter bytes p

/-- The acknowledgement repeats the flags, the rates and the cookie, where the message
has the flags and the rates in full. -/
def Acknowledges (libnl : Libnl) (bytes : List UInt8) (src : EtherAddr) (ack : HwsimMsg) : Prop :=
  ∀ table f t, libnl.genlmsgParse hwsimAttrMax bytes = some table →
    table HwsimAttr.flags.code = some f → table HwsimAttr.txInfo.code = some t →
    nlaHdrlen + 4 ≤ attrLen bytes f → nlaHdrlen + CKernelWifi.txInfoSize ≤ attrLen bytes t →
    ack = .txInfoFrame src
      (UInt32.ofNat (value (payload bytes f 4)) ||| CKernelWifi.hwsimTxStatAck) (-10)
      (payload bytes t CKernelWifi.txInfoSize)
      (cookieOf bytes (table HwsimAttr.cookie.code))

/-- `process_messages` reports the frame to the radio it comes from and passes it on to
the other radios of the guest, at the power of its sender. -/
structure PassesOn (libnl : Libnl) (s : CKernelWifi) (bytes data : List UInt8) (freq : TFrequency)
    (oks : List Bool) (power : TPower) (s' : CKernelWifi) : Prop where
  source : ∃ source : EtherAddr, source.octets = (data.drop 10).take ethAlen ∧
    power = s.transmitPower source
  calls : ∃ src ack, TransmittedBy libnl bytes src ∧ Acknowledges libnl bytes src ack ∧
    s.injected s' = ⟨ack, 0 ≤ s.hwsim.familyId && oks.headD true⟩ ::
      Hwsim.clones s.hwsim.familyId data CKernelWifi.rateIdx power.toInt freq
        (s.radios.filter (· ≠ src)) oks.tail

namespace CKernelWifi

section Sending

open Patch

variable {libnl : Libnl} {s s' : CKernelWifi} {msg : NlMessage} {old : AttrTable}
  {around : Memory} {oks : List Bool} {table : Nat → Option Nat} {p q : Nat} {data : List UInt8}
  {freq : TFrequency}

theorem updateTransmitter_outside (mem : Memory) (src frame : Int) {a : Int}
    (h : ¬ (24 ≤ a ∧ a < 30)) : updateTransmitter mem src frame a = mem a := by
  unfold updateTransmitter
  split
  · rw [Memory.write, if_neg]
    rw [(framesrc mem frame).length, ethAlen]
    omega
  · rfl

/-- Where the message that is sent is the right one, the memory holds it. -/
theorem updateTransmitter_block {message : List UInt8}
    (hlength : message.length = msg.bytes.length) (hlong : 30 ≤ message.length)
    (hread : (updateTransmitter (Memory.ofBlock msg.bytes around) p q).read 0 msg.bytes.length =
      message) :
    updateTransmitter (Memory.ofBlock msg.bytes around) p q = Memory.ofBlock message around := by
  apply Memory.eq_ofBlock
  · rw [hlength]
    exact hread
  · intro a hout
    rw [updateTransmitter_outside _ _ _ (by omega), Memory.ofBlock, Memory.write, if_neg (by omega)]

theorem updateTransmitter_replaced
    (hparsed : libnl.genlmsgParse hwsimAttrMax msg.bytes = some table)
    (hp : table HwsimAttr.addrTransmitter.code = some p)
    (hq : table HwsimAttr.frame.code = some q)
    (htransmitter : nlaHdrlen + ethAlen ≤ attrLen msg.bytes p)
    (hframe : nlaHdrlen + 10 + ethAlen ≤ attrLen msg.bytes q)
    (hplace : transmitter msg.bytes p = frameSource msg.bytes q ∨ p < 26 ∧
      patch msg.bytes 24 (frameSource msg.bytes q) =
        patch msg.bytes (p + nlaHdrlen) (frameSource msg.bytes q)) :
    updateTransmitter (Memory.ofBlock msg.bytes around) p q =
      Memory.ofBlock (patch msg.bytes (p + nlaHdrlen) (frameSource msg.bytes q)) around := by
  obtain ⟨hstart, _, hpend⟩ := libnl.inside _ _ _ _ _ hparsed hp
  obtain ⟨_, _, hqend⟩ := libnl.inside _ _ _ _ _ hparsed hq
  have hpend : p + attrLen msg.bytes p ≤ msg.bytes.length := hpend
  have hlength := frameSource_length hqend hframe
  have hsame : (patch msg.bytes (p + nlaHdrlen) (frameSource msg.bytes q)).length =
      msg.bytes.length :=
    patch_length (by omega)
  rw [sizeofNlmsghdr, genlHdrlen] at hstart
  rw [nlaHdrlen, ethAlen] at htransmitter
  apply updateTransmitter_block hsame (by omega)
  exact (updateTransmitter_right_iff around hparsed hp hq htransmitter hframe).mpr hplace

/-- The frame is read from the message with another transmitter as it was. -/
theorem replaced_read {bytes message : List UInt8} (h : Rewritten libnl bytes message)
    (hparsed : libnl.genlmsgParse hwsimAttrMax bytes = some table)
    (hq : table HwsimAttr.frame.code = some q) (around : Memory) :
    (Memory.ofBlock message around).read (Memory.nlaData q) (attrLen bytes q - nlaHdrlen) =
      (bytes.drop (q + nlaHdrlen)).take (attrLen bytes q - nlaHdrlen) := by
  obtain ⟨table', p, q', hparsed', hp, hq', htransmitter, hframe, hmessage, _, _, hothers⟩ := h
  cases hparsed.symm.trans hparsed'
  cases hq.symm.trans hq'
  obtain ⟨_, _, hpend⟩ := libnl.inside _ _ _ _ _ hparsed hp
  obtain ⟨_, _, hqend⟩ := libnl.inside _ _ _ _ _ hparsed hq
  have hpend : p + attrLen bytes p ≤ bytes.length := hpend
  have hqend : q + attrLen bytes q ≤ bytes.length := hqend
  have hlength := frameSource_length hqend hframe
  have hsame : message.length = bytes.length := by
    rw [hmessage]
    exact patch_length (by omega)
  rw [nlaHdrlen, ethAlen] at hframe
  rw [nlaHdrlen]
  have hpart := window_part (hothers _ q hq (by decide))
    (show 4 + (attrLen bytes q - 4) ≤ attrLen bytes q by omega)
  rw [← hpart]
  exact Memory.ofBlock_read around (show q + 4 + (attrLen bytes q - 4) ≤ message.length by omega)

theorem framesrc_octets (hq : q + attrLen msg.bytes q ≤ msg.bytes.length)
    (hframe : nlaHdrlen + 10 + ethAlen ≤ attrLen msg.bytes q) :
    (framesrc (Memory.ofBlock msg.bytes around) q).octets =
      (((msg.bytes.drop (q + nlaHdrlen)).take (attrLen msg.bytes q - nlaHdrlen)).drop 10).take
        ethAlen := by
  rw [nlaHdrlen, ethAlen] at hframe
  rw [nlaHdrlen, ethAlen, List.drop_take, List.drop_drop, List.take_take,
    Nat.min_eq_left (by omega)]
  exact Memory.ofBlock_read around (show q + nlaHdrlen + 10 + ethAlen ≤ _ by
    rw [nlaHdrlen, ethAlen]; omega)

/-- What is read for the acknowledgement are the attributes of the message. -/
theorem acknowledges_read (hparsed : libnl.genlmsgParse hwsimAttrMax msg.bytes = some table)
    {src : EtherAddr} {flags txInfo : Nat}
    (hflags : table HwsimAttr.flags.code = some flags)
    (htxInfo : table HwsimAttr.txInfo.code = some txInfo) :
    Acknowledges libnl msg.bytes src
      (.txInfoFrame src ((Memory.ofBlock msg.bytes around).nlaGetU32 flags ||| hwsimTxStatAck) (-10)
        ((Memory.ofBlock msg.bytes around).read (Memory.nlaData txInfo) txInfoSize)
        ((Memory.ofBlock msg.bytes around).nlaGetU64
          (libnl.attrs (Memory.ofBlock msg.bytes around) old HwsimAttr.cookie.code))) := by
  intro table' f t htable hf ht hflagsLong htxLong
  cases hparsed.symm.trans htable
  cases hflags.symm.trans hf
  cases htxInfo.symm.trans ht
  obtain ⟨_, hflagsEnd⟩ := msg.begins.nlaLen around hparsed hflags
  obtain ⟨_, htxEnd⟩ := msg.begins.nlaLen around hparsed htxInfo
  rw [attrLen] at hflagsLong htxLong
  have hreadFlags : (Memory.ofBlock msg.bytes around).read (Memory.nlaData flags) 4 =
      payload msg.bytes flags 4 :=
    Memory.ofBlock_read around (show flags + nlaHdrlen + 4 ≤ _ by omega)
  have hreadTx : (Memory.ofBlock msg.bytes around).read (Memory.nlaData txInfo) txInfoSize =
      payload msg.bytes txInfo txInfoSize :=
    Memory.ofBlock_read around (show txInfo + nlaHdrlen + txInfoSize ≤ _ by omega)
  have hcookie : (Memory.ofBlock msg.bytes around).nlaGetU64
      (libnl.attrs (Memory.ofBlock msg.bytes around) old HwsimAttr.cookie.code) =
        cookieOf msg.bytes (table HwsimAttr.cookie.code) := by
    rw [msg.begins.attrs libnl around old hparsed]
    cases hcookie : table HwsimAttr.cookie.code with
    | none =>
      dsimp only
      rw [hcookie]
      rfl
    | some r =>
      obtain ⟨hlen, hend⟩ := msg.begins.nlaLen around hparsed hcookie
      dsimp only
      rw [hcookie]
      change (if 8 ≤ (Memory.ofBlock msg.bytes around).nlaLen r then
          UInt64.ofNat (value ((Memory.ofBlock msg.bytes around).read (Memory.nlaData r) 8))
        else 0) = cookieOf msg.bytes (some r)
      rw [hlen, cookieOf, attrLen]
      by_cases hlong : nlaHdrlen + 8 ≤ value ((msg.bytes.drop r).take 2)
      · have hread : (Memory.ofBlock msg.bytes around).read (Memory.nlaData r) 8 =
            payload msg.bytes r 8 :=
          Memory.ofBlock_read around (show r + nlaHdrlen + 8 ≤ _ by omega)
        rw [if_pos hlong, if_pos (by omega), hread]
      · rw [if_neg hlong, if_neg (by omega)]
  rw [hcookie, hreadTx, Memory.nlaGetU32, hreadFlags]

section Forward

variable {mem mem' : Memory} {src flags txInfo frame : Int} {msgLen : Nat}

/-- The calls that are made for a frame, with the memory after the transmitter was
replaced. -/
theorem forwardFrame_injected (attrs : AttrTable) (ok : Bool) (oks : List Bool)
    (hmem : updateTransmitter mem src frame = mem') :
    s.injected ((s.acknowledged mem attrs src flags txInfo ok).forwardFrame mem msgLen attrs src
      frame oks) =
      ⟨.txInfoFrame (mem.etherAddr (Memory.nlaData src)) (mem.nlaGetU32 flags ||| hwsimTxStatAck)
          (-10) (mem.read (Memory.nlaData txInfo) txInfoSize)
          (mem.nlaGetU64 (attrs HwsimAttr.cookie.code)), 0 ≤ s.hwsim.familyId && ok⟩ ::
        Hwsim.clones s.hwsim.familyId (mem'.read (Memory.nlaData frame) (mem.nlaLen frame).toNat)
          rateIdx (s.transmitPower (framesrc mem frame)).toInt (frequency mem' attrs)
          (s.radios.filter (· ≠ mem.etherAddr (Memory.nlaData src))) oks := by
  rw [forwardFrame, acknowledged, hmem]
  simp only [Hwsim.cloneFrame_eq, injected, Hwsim.sendTxInfoFrameNl, Hwsim.call]
  rw [List.append_assoc, List.drop_left]
  rfl

theorem forwardFrame_sent {d : TDescriptor} (attrs : AttrTable) (oks : List Bool)
    (hmem : updateTransmitter mem src frame = mem') (hmaster : s.uplink.master = some d)
    (h : (s.forwardFrame mem msgLen attrs src frame oks).uplink.connectedToServer = true) :
    sentOn d (s.forwardFrame mem msgLen attrs src frame oks).uplink.kernel.log =
      sentOn d s.uplink.kernel.log ++
        (s.transmitPower (framesrc mem frame)).toUInt8 :: mem'.read 0 msgLen := by
  have hsends := @Uplink.forward_sends
    { s.uplink with kernel := s.uplink.kernel.record [.use 16 (mem.nlaLen frame).toNat] } _ _ d
    hmaster h
  have hrecord : sentOn d (s.uplink.kernel.record [.use 16 (mem.nlaLen frame).toNat]).log =
      sentOn d s.uplink.kernel.log := by
    apply sentOn_reads
    intro a ha
    rw [List.mem_singleton.mp ha]
    rfl
  rw [hrecord] at hsends
  rw [← hmem]
  exact hsends

end Forward

/-- With another transmitter the frame and its frequency are found as before. -/
theorem rewritten_reads {message : List UInt8} (hrewritten : Rewritten libnl msg.bytes message)
    (hcarries : CarriesFrame libnl msg.bytes data freq)
    (hparsed : libnl.genlmsgParse hwsimAttrMax msg.bytes = some table)
    (hq : table HwsimAttr.frame.code = some q) :
    (Memory.ofBlock message around).read (Memory.nlaData q)
        ((Memory.ofBlock msg.bytes around).nlaLen q).toNat = data ∧
      frequency (Memory.ofBlock message around)
        (libnl.attrs (Memory.ofBlock msg.bytes around) old) = freq := by
  have hcarries' := hcarries
  obtain ⟨_, _, _, _, tableOld, _, _, hparsedOld, _, hqOld, hdata, _⟩ := hcarries'
  cases hparsed.symm.trans hparsedOld
  cases hq.symm.trans hqOld
  constructor
  · rw [(msg.begins.nlaLen around hparsed hq).1, Int.toNat_natCast, hdata]
    exact replaced_read hrewritten hparsed hq around
  · have hcarried := hrewritten.carries hcarries
    have hbegins : Begins message message :=
      ⟨List.take_length, hcarried.header, Nat.le_of_lt hcarried.complete⟩
    have hparsedNew : libnl.genlmsgParse hwsimAttrMax message = some table := by
      obtain ⟨table', _, _, hparsed', _, _, _, _, _, hparsedNew, _⟩ := hrewritten
      cases hparsed.symm.trans hparsed'
      exact hparsedNew
    obtain ⟨_, _, _, _, table', _, _, hparsed', _, _, _, hfreq', hroom'⟩ := hcarried
    cases hparsedNew.symm.trans hparsed'
    rw [msg.begins.attrs libnl around old hparsed,
      ← hbegins.attrs libnl around old hparsedNew, hfreq']
    exact frequency_begins hbegins hparsedNew hroom' around old

/-- `process_messages` gets through where the transmitter can be replaced, and passes the
frame on; unless it loses the connection, the message it sends is the one with the
sender as its transmitter, and carries that frame. -/
theorem processMessages_passesOn (hseq : libnl.Sequential) (hpasses : Passes libnl s msg old around)
    (hcarries : CarriesFrame libnl msg.bytes data freq)
    (hreplaceable : Replaceable libnl msg.bytes) (oks : List Bool) :
    ∃ s' power, s.processMessages libnl msg old around oks = some s' ∧
      PassesOn libnl s msg.bytes data freq oks power s' ∧
      (s'.uplink.connectedToServer = true → ∃ d message, s.uplink.master = some d ∧
        sentOn d s'.uplink.kernel.log =
          sentOn d s.uplink.kernel.log ++ power.toUInt8 :: message ∧
        Rewritten libnl msg.bytes message ∧ CarriesFrame libnl message data freq) := by
  obtain ⟨table, p, q, hparsed, hp, hq, hflags, htxInfo, htransmitter, hframe, hplace⟩ :=
    hreplaceable
  have hcarries' := hcarries
  obtain ⟨_, _, _, _, table', _, q', hparsed', _, hq', hdata, _⟩ := hcarries'
  cases hparsed.symm.trans hparsed'
  cases hq.symm.trans hq'
  obtain ⟨_, _, hqend⟩ := libnl.inside _ _ _ _ _ hparsed hq
  have hattrs := msg.begins.attrs libnl around old hparsed
  have hmemory := @updateTransmitter_replaced libnl msg around table p q hparsed hp hq htransmitter
    hframe hplace
  have hrewritten := rewritten_patch hseq hparsed hp hq htransmitter hframe
  generalize patch msg.bytes (p + nlaHdrlen) (frameSource msg.bytes q) = message at *
  obtain ⟨s', hhandled⟩ := @processMessages_isSome libnl s msg old around oks hpasses
    (by rw [hattrs, Option.isSome_map]; exact hflags)
    (by rw [hattrs, Option.isSome_map]; exact htxInfo)
    (by rw [hattrs, Option.isSome_map, hq]; rfl)
  obtain ⟨src, flags, txInfo, frame, hsrc, hflags', htxInfo', hframe', rfl⟩ :=
    (processMessages_some_iff hpasses).mp hhandled
  rw [hattrs] at hsrc hflags' htxInfo' hframe'
  dsimp only at hsrc hflags' htxInfo' hframe'
  obtain ⟨f, hf, rfl⟩ := Option.map_eq_some_iff.mp hflags'
  obtain ⟨t, ht, rfl⟩ := Option.map_eq_some_iff.mp htxInfo'
  rw [hp] at hsrc
  rw [hq] at hframe'
  cases hsrc
  cases hframe'
  have hcarried := hrewritten.carries hcarries
  obtain ⟨hread, hfrequency⟩ :=
    @rewritten_reads libnl msg old around table q data freq message hrewritten hcarries hparsed hq
  have hinjected := @forwardFrame_injected s _ _ p f t q msg.bytes.length
    (libnl.attrs (Memory.ofBlock msg.bytes around) old) (oks.headD true) oks.tail hmemory
  rw [hread, hfrequency] at hinjected
  refine ⟨_, s.transmitPower (framesrc (Memory.ofBlock msg.bytes around) q), hhandled, ⟨?_, ?_⟩, ?_⟩
  · refine ⟨framesrc (Memory.ofBlock msg.bytes around) q, ?_, rfl⟩
    rw [hdata]
    exact framesrc_octets hqend hframe
  · refine ⟨_, _, ⟨table, p, hparsed, hp, ?_⟩, acknowledges_read hparsed hf ht, hinjected⟩
    obtain ⟨_, _, hpend⟩ := libnl.inside _ _ _ _ _ hparsed hp
    have hpend : p + attrLen msg.bytes p ≤ msg.bytes.length := hpend
    exact Memory.ofBlock_read around (show p + nlaHdrlen + ethAlen ≤ _ by omega)
  · intro hkept
    obtain ⟨d, hmaster⟩ := Uplink.forward_master hkept
    have hsent := forwardFrame_sent _ _ hmemory hmaster hkept
    have hall : (Memory.ofBlock message around).read 0 msg.bytes.length = message := by
      rw [← hrewritten.length]
      exact (@Memory.ofBlock_read message 0 message.length around (by omega)).trans List.take_length
    rw [hall] at hsent
    exact ⟨d, message, hmaster, hsent, hrewritten, hcarried⟩

/-- What the driver of one guest hands over is passed on to its other radios, and sent
with its sender as the transmitter, as a message that a client of another guest takes
from the head of its stream, at whatever level the server has put in front of it, and
hands to its radios as the same frame on the same frequency. -/
theorem frame_carried (hseq : libnl.Sequential) (hpasses : Passes libnl s msg old around)
    (hcarries : CarriesFrame libnl msg.bytes data freq)
    (hreplaceable : Replaceable libnl msg.bytes) (oks : List Bool) :
    ∃ s' power, s.processMessages libnl msg old around oks = some s' ∧
      PassesOn libnl s msg.bytes data freq oks power s' ∧
      (s'.uplink.connectedToServer = true → ∃ d message, s.uplink.master = some d ∧
        sentOn d s'.uplink.kernel.log =
          sentOn d s.uplink.kernel.log ++ power.toUInt8 :: message ∧
        Rewritten libnl msg.bytes message ∧
        ∀ (t : CKernelWifi) (level : TPower) rest sel m oks,
          t.uplink.supply = level.toUInt8 :: message ++ rest → t.uplink.Reads sel →
            ∃ t', t.recvFromServer libnl sel m oks = some t' ∧
              t.injected t' =
                Hwsim.clones t.hwsim.familyId data rateIdx level.toInt freq t.radios oks ∧
              t'.uplink.supply = rest ∧
              t'.uplink.connectedToServer = t.uplink.connectedToServer) := by
  obtain ⟨s', power, hhandled, hpassesOn, hsends⟩ :=
    processMessages_passesOn hseq hpasses hcarries hreplaceable oks
  refine ⟨s', power, hhandled, hpassesOn, fun hkept => ?_⟩
  obtain ⟨d, message, hmaster, hsent, hrewritten, hcarried⟩ := hsends hkept
  refine ⟨d, message, hmaster, hsent, hrewritten, ?_⟩
  intro t level rest sel m oks hsupply hreads
  exact recvFromServer_carries hcarried hsupply hreads m oks

end Sending

theorem smallMessage_carries :
    CarriesFrame Libnl.walk smallMessage.bytes (List.replicate 24 7) 0 ∧
      Replaceable Libnl.walk smallMessage.bytes := by
  have hparsed : (Libnl.walk.genlmsgParse hwsimAttrMax smallMessage.bytes).map (fun table =>
      (table HwsimAttr.addrTransmitter.code, table HwsimAttr.frame.code,
        table HwsimAttr.freq.code, (table HwsimAttr.flags.code).isSome,
        (table HwsimAttr.txInfo.code).isSome)) = some (some 20, some 32, none, true, true) := by
    decide +kernel
  obtain ⟨table, htable, heq⟩ := Option.map_eq_some_iff.mp hparsed
  simp only [Prod.mk.injEq] at heq
  obtain ⟨hp, hq, hfreq, hflags, htxInfo⟩ := heq
  constructor
  · refine ⟨smallMessage.header, by decide +kernel, by decide +kernel, by decide +kernel, table,
      20, 32, htable, hp, hq, by decide +kernel, by rw [hfreq]; rfl, ?_⟩
    intro r hr
    rw [hfreq] at hr
    cases hr
  · exact ⟨table, 20, 32, htable, hp, hq, hflags, htxInfo, by decide +kernel, by decide +kernel,
      by decide +kernel⟩

/-- A guest with one radio to which the bytes `sent` are on their way. -/
def guest (sent : List UInt8) : CKernelWifi :=
  { receivingClient sent with
    interfaces := ⟨true, WirelessDeviceList.after [.addDevice (wlan 3 1)]⟩ }

theorem frame_carried_small : ∃ s' message,
    readyClient.processMessages Libnl.walk smallMessage (fun _ => none) (fun _ => 0) [] = some s' ∧
      sentOn 5 s'.uplink.kernel.log = 10 :: message ∧
      ∃ t', (guest (236 :: message)).recvFromServer Libnl.walk (.ready (fun _ => true) 1)
          ⟨0, fun _ => none, fun _ => 0⟩ [] = some t' ∧
        (guest (236 :: message)).injected t' =
          [⟨.clonedFrame ⟨[66, 0, 0, 0, 0, 1], rfl⟩ (List.replicate 24 7) 7 (-20) 0, true⟩] := by
  have hpasses : Passes Libnl.walk readyClient smallMessage (fun _ => none) (fun _ => 0) :=
    ⟨rfl, by decide +kernel, by decide +kernel, by decide +kernel⟩
  obtain ⟨hcarries, hreplaceable⟩ := smallMessage_carries
  obtain ⟨s', power, hhandled, ⟨⟨source, _, hpower⟩, _⟩, hsends⟩ :=
    frame_carried Libnl.walk_sequential hpasses hcarries hreplaceable []
  obtain ⟨d, message, hmaster, hsent, _, hreceives⟩ :=
    hsends (readyClient_connected (by decide +kernel) s' hhandled)
  cases hmaster
  have hsupply : (guest (236 :: message)).uplink.supply = (-20 : Int8).toUInt8 :: message ++ [] :=
    servingKernel_supply (List.cons_ne_nil 236 message) 5
  obtain ⟨t', htaken, hinjected, _⟩ := hreceives (guest (236 :: message)) (-20) []
    (.ready (fun _ => true) 1) ⟨0, fun _ => none, fun _ => 0⟩ [] hsupply (by
      change (guest []).uplink.Reads (.ready (fun _ => true) 1)
      decide)
  refine ⟨s', message, hhandled, ?_, t', htaken, hinjected.trans ?_⟩
  · rw [hsent, hpower]
    rfl
  · have hradios : (guest (236 :: message)).radios = [⟨[66, 0, 0, 0, 0, 1], rfl⟩] := by
      change (guest []).radios = _
      decide +kernel
    rw [hradios]
    rfl

end CKernelWifi

end Vwifi
