import Vwifi.Injection

/-!
# What is used of a received message

A message comes from another guest, and nobody on its way has looked at more than its
length. `recv_from_server` is recorded with what it reads and which entries of the
attribute table it uses; from this follows which messages it handles without using
anything that is not in them.
-/

namespace Vwifi

set_option autoImplicit false

open LittleEndian

/-- Something that is read on the way through a message. -/
inductive Access where
  /-- Bytes of memory. -/
  | bytes (address : Int) (size : Nat)
  /-- An entry of the table `attrs`. -/
  | slot (type : Nat)
  /-- The attribute an entry of the table points to. -/
  | followed (type : Nat)
  /-- Bytes of the payload of the attribute at an address. -/
  | payload (attr : Int) (offset size : Nat)

/-- Nothing is used that is not in the message: bytes that were received, entries that
`genlmsg_parse` has written, attributes it has found, and of these the payload. -/
def Access.Safe (libnl : Libnl) (message : List UInt8) : Access → Prop
  | bytes address size => 0 ≤ address ∧ address + size ≤ message.length
  | slot _ => (libnl.genlmsgParse hwsimAttrMax message).isSome
  | followed type =>
    ∃ table, libnl.genlmsgParse hwsimAttrMax message = some table ∧ (table type).isSome
  | payload attr offset size =>
    nlaHdrlen + offset + size ≤ value ((message.drop attr.toNat).take 2)

namespace CKernelWifi

/-- How the frequency is looked up. -/
def frequencyAccesses (attrs : AttrTable) : List Access :=
  .slot HwsimAttr.freq.code ::
    match attrs HwsimAttr.freq.code with
    | none => []
    | some freq => [.followed HwsimAttr.freq.code, .bytes (Memory.nlaData freq) 4]

/-- `decode` with its accesses. The attribute for the frame is followed without a test,
and six bytes of its payload are copied as an address whatever its length is. -/
def decodeTraced (libnl : Libnl) (mem : Memory) (old : AttrTable) : List Access × Decoded :=
  if mem.cmd ≠ HwsimCmd.frame.code then ([.bytes sizeofNlmsghdr 1], .ignored)
  else
    let attrs := libnl.attrs mem old
    let freq := frequency mem attrs
    let accesses := [.bytes sizeofNlmsghdr 1, .bytes 0 mem.nlmsgLen] ++ frequencyAccesses attrs ++
      [.slot HwsimAttr.addrTransmitter.code]
    match attrs HwsimAttr.addrTransmitter.code with
    | none => (accesses, .ignored)
    | some _ =>
      match attrs HwsimAttr.frame.code with
      | none => (accesses ++ [.followed HwsimAttr.frame.code], .nullFrame)
      | some frame =>
        (accesses ++ [.followed HwsimAttr.frame.code, .bytes frame 2,
            .payload frame 0 (mem.nlaLen frame).toNat, .payload frame 4 ethAlen],
          .frame (Memory.nlaData frame) (mem.nlaLen frame) freq)

theorem decodeTraced_decode (libnl : Libnl) (mem : Memory) (old : AttrTable) :
    (decodeTraced libnl mem old).2 = decode libnl mem old := by
  unfold decodeTraced decode
  split
  · rfl
  · cases htransmitter : libnl.attrs mem old HwsimAttr.addrTransmitter.code with
    | none => simp only [htransmitter]
    | some _ =>
      cases hframe : libnl.attrs mem old HwsimAttr.frame.code with
      | none => simp only [htransmitter, hframe]
      | some _ => simp only [htransmitter, hframe]

/-- What `recv_from_server` promises about a message: it ignores it or injects the frame
in it, and it uses nothing that is not in it. -/
structure HandlesSafely (libnl : Libnl) (s : CKernelWifi) (r : CWifi.Received) (m : Unwritten)
    (oks : List Bool) : Prop where
  handled : ∃ s', s.handleSignal libnl r m.attrs m.around oks = some s' ∧
    (s.injected s' = [] ∨ ∃ data freq, frameOf libnl r.message = some data ∧
      s.injected s' =
        Hwsim.clones s.hwsim.familyId data rateIdx r.power.toInt freq s.radios oks)
  accesses : ∀ a ∈ (decodeTraced libnl (Memory.ofBlock r.buffer.buffer m.around) m.attrs).1,
    a.Safe libnl r.message

/-- There is a byte for the command; and in a message with a frame the attributes were
found, four bytes follow the header of one for the frequency, and where there is a
transmitter there is a frame of at least ten bytes. -/
structure WellFormed (libnl : Libnl) (message : List UInt8) : Prop where
  command : sizeofNlmsghdr < message.length
  attributes : message[sizeofNlmsghdr]? = some HwsimCmd.frame.code →
    ∃ table, libnl.genlmsgParse hwsimAttrMax message = some table ∧
      (∀ p, table HwsimAttr.freq.code = some p → p + nlaHdrlen + 4 ≤ message.length) ∧
      ((table HwsimAttr.addrTransmitter.code).isSome → ∃ p, table HwsimAttr.frame.code = some p ∧
        nlaHdrlen + 4 + ethAlen ≤ value ((message.drop p).take 2))

variable {libnl : Libnl} {s : CKernelWifi} {r : CWifi.Received} {m : Unwritten} {oks : List Bool}

theorem handleSignal_ignored
    (h : decode libnl (Memory.ofBlock r.buffer.buffer m.around) m.attrs = .ignored) :
    ∃ s', s.handleSignal libnl r m.attrs m.around oks = some s' ∧ s.injected s' = [] := by
  unfold handleSignal
  dsimp only
  rw [Uplink.received_buffer, h]
  exact ⟨_, rfl, List.drop_length⟩

theorem handleSignal_frame {data dataLen : Int} {freq : TFrequency}
    (h : decode libnl (Memory.ofBlock r.buffer.buffer m.around) m.attrs =
      .frame data dataLen freq) :
    ∃ s', s.handleSignal libnl r m.attrs m.around oks = some s' ∧
      s.injected s' = Hwsim.clones s.hwsim.familyId
        ((Memory.ofBlock r.buffer.buffer m.around).read data dataLen.toNat) rateIdx r.power.toInt
        freq s.radios oks := by
  unfold handleSignal
  dsimp only
  rw [Uplink.received_buffer, h]
  refine ⟨_, rfl, ?_⟩
  rw [injected]
  dsimp only
  rw [Hwsim.cloneFrame_eq, List.drop_left]

/-- What an accepted call has stored begins the buffer. -/
theorem received_begins (hne : (s.uplink.recvSignal m.power).valread ≠ socketError)
    (hlong : sizeofNlmsghdr < (s.uplink.recvSignal m.power).message.length) :
    Begins (s.uplink.recvSignal m.power).buffer.buffer (s.uplink.recvSignal m.power).message := by
  unfold Uplink.recvSignal at hne hlong ⊢
  cases hmaster : s.uplink.master with
  | none =>
    rw [hmaster] at hne
    exact absurd rfl hne
  | some d =>
    rw [hmaster] at hne hlong
    dsimp only at hne hlong ⊢
    obtain ⟨hlength, hvalue⟩ := CWifi.recvSignal_message hne
    generalize CWifi.recvSignalWithSocket s.uplink.kernel d m.power s.uplink.buffer = r at *
    have hnonneg : 0 ≤ CWifi.nlmsgLen r.message := by omega
    have hheader := CWifi.nlmsgLen_of_nonneg hnonneg
    refine ⟨?_, by omega, Nat.le_of_lt hlong⟩
    rw [hlength]
    rfl

section Accesses

variable {block message : List UInt8} {around : Memory} {old : AttrTable}

theorem mem_decodeTraced {mem : Memory} {a : Access} (hcmd : mem.cmd = HwsimCmd.frame.code)
    (h : a ∈ frequencyAccesses (libnl.attrs mem old)) : a ∈ (decodeTraced libnl mem old).1 := by
  have hhead : ∀ tail, a ∈ [.bytes sizeofNlmsghdr 1, .bytes 0 mem.nlmsgLen] ++
      frequencyAccesses (libnl.attrs mem old) ++ [.slot HwsimAttr.addrTransmitter.code] ++ tail :=
    fun tail => List.mem_append_left _ (List.mem_append_left _ (List.mem_append_right _ h))
  rw [decodeTraced, if_neg (not_not.mpr hcmd)]
  dsimp only
  split
  · have hall := hhead []
    rwa [List.append_nil] at hall
  · split
    · exact hhead _
    · exact hhead _

/-- The accesses tell the messages that are not well-formed. -/
theorem wellFormed_of_accesses (hbegins : Begins block message)
    (hlong : sizeofNlmsghdr < message.length)
    (h : ∀ a ∈ (decodeTraced libnl (Memory.ofBlock block around) old).1, a.Safe libnl message) :
    WellFormed libnl message := by
  refine ⟨hlong, fun hframe => ?_⟩
  have hcmd : (Memory.ofBlock block around).cmd = HwsimCmd.frame.code := by
    rw [hbegins.cmd around hlong] at hframe
    exact Option.some.inj hframe
  have hslot : (libnl.genlmsgParse hwsimAttrMax message).isSome :=
    h _ (mem_decodeTraced hcmd List.mem_cons_self)
  obtain ⟨table, htable⟩ := Option.isSome_iff_exists.mp hslot
  have hattrs := hbegins.attrs libnl around old htable
  refine ⟨table, htable, fun p hp => ?_, fun htransmitter => ?_⟩
  · have hfreq : .bytes (Memory.nlaData p) 4 ∈
        frequencyAccesses (libnl.attrs (Memory.ofBlock block around) old) := by
      simp [frequencyAccesses, hattrs, hp]
    have hsafe := (h _ (mem_decodeTraced hcmd hfreq)).2
    rw [Memory.nlaData] at hsafe
    omega
  · obtain ⟨t, ht⟩ := Option.isSome_iff_exists.mp htransmitter
    cases hp : table HwsimAttr.frame.code with
    | none =>
      have hsafe := h (.followed HwsimAttr.frame.code)
        (by simp [decodeTraced, hcmd, hattrs, ht, hp])
      obtain ⟨table', htable', hsome⟩ := hsafe
      cases htable.symm.trans htable'
      rw [hp] at hsome
      cases hsome
    | some p =>
      have hsafe := h (.payload p 4 ethAlen) (by simp [decodeTraced, hcmd, hattrs, ht, hp])
      exact ⟨p, rfl, hsafe⟩

theorem frequencyAccesses_safe {table : Nat → Option Nat}
    (htable : libnl.genlmsgParse hwsimAttrMax message = some table)
    (hfreq : ∀ p, table HwsimAttr.freq.code = some p → p + nlaHdrlen + 4 ≤ message.length) :
    ∀ a ∈ frequencyAccesses (fun type => (table type).map Int.ofNat), a.Safe libnl message := by
  intro a ha
  rcases List.mem_cons.mp ha with rfl | ha
  · rw [Access.Safe, htable]
    rfl
  · dsimp only at ha
    cases hp : table HwsimAttr.freq.code with
    | none =>
      rw [hp] at ha
      cases ha
    | some p =>
      rw [hp] at ha
      have hroom := hfreq p hp
      rcases List.mem_cons.mp ha with rfl | ha
      · exact ⟨table, htable, by rw [hp]; rfl⟩
      · rw [List.mem_singleton.mp ha]
        simp only [Access.Safe, Memory.nlaData, Int.ofNat_eq_natCast]
        omega

theorem headAccesses_safe (hbegins : Begins block message) (hlong : sizeofNlmsghdr < message.length)
    {table : Nat → Option Nat} (htable : libnl.genlmsgParse hwsimAttrMax message = some table)
    (hfreq : ∀ p, table HwsimAttr.freq.code = some p → p + nlaHdrlen + 4 ≤ message.length) :
    ∀ a ∈ [.bytes sizeofNlmsghdr 1, .bytes 0 (Memory.ofBlock block around).nlmsgLen] ++
      frequencyAccesses (libnl.attrs (Memory.ofBlock block around) old) ++
        [.slot HwsimAttr.addrTransmitter.code], a.Safe libnl message := by
  intro a ha
  rw [hbegins.attrs libnl around old htable, hbegins.nlmsgLen around] at ha
  rcases List.mem_append.mp ha with ha | ha
  · rcases List.mem_append.mp ha with ha | ha
    · rcases List.mem_cons.mp ha with rfl | ha
      · exact ⟨Int.natCast_nonneg _, by omega⟩
      · rw [List.mem_singleton.mp ha]
        exact ⟨Int.le_refl 0, by omega⟩
    · exact frequencyAccesses_safe htable hfreq a ha
  · rw [List.mem_singleton.mp ha, Access.Safe, htable]
    rfl

theorem frameAccesses_safe {table : Nat → Option Nat} {p length : Nat}
    (htable : libnl.genlmsgParse hwsimAttrMax message = some table)
    (hp : table HwsimAttr.frame.code = some p)
    (hlength : length = value ((message.drop p).take 2) - nlaHdrlen)
    (hend : p + nlaHdrlen + length ≤ message.length)
    (hpayload : nlaHdrlen + 4 + ethAlen ≤ value ((message.drop p).take 2)) :
    ∀ a ∈ [Access.followed HwsimAttr.frame.code, .bytes p 2, .payload p 0 length,
      .payload p 4 ethAlen], a.Safe libnl message := by
  intro a ha
  rcases List.mem_cons.mp ha with rfl | ha
  · exact ⟨table, htable, by rw [hp]; rfl⟩
  rcases List.mem_cons.mp ha with rfl | ha
  · rw [nlaHdrlen] at hend
    refine ⟨Int.natCast_nonneg p, ?_⟩
    omega
  rcases List.mem_cons.mp ha with rfl | ha
  · rw [ethAlen] at hpayload
    rw [Access.Safe, Int.toNat_natCast]
    omega
  · rw [List.mem_singleton.mp ha]
    exact hpayload

theorem accesses_of_wellFormed (hbegins : Begins block message) (h : WellFormed libnl message) :
    (∀ a ∈ (decodeTraced libnl (Memory.ofBlock block around) old).1, a.Safe libnl message) ∧
      decode libnl (Memory.ofBlock block around) old ≠ .nullFrame := by
  obtain ⟨hlong, hattributes⟩ := h
  rw [← decodeTraced_decode]
  by_cases hcmd : (Memory.ofBlock block around).cmd = HwsimCmd.frame.code
  · have hframe := hbegins.cmd around hlong
    rw [hcmd] at hframe
    obtain ⟨table, htable, hfreq, htransmitter⟩ := hattributes hframe
    have hattrs := hbegins.attrs libnl around old htable
    have hhead := @headAccesses_safe libnl _ _ around old hbegins hlong _ htable hfreq
    rw [decodeTraced, if_neg (not_not.mpr hcmd)]
    cases ht : table HwsimAttr.addrTransmitter.code with
    | none =>
      simp only [hattrs, ht, Option.map_none] at hhead ⊢
      exact ⟨hhead, nofun⟩
    | some t =>
      obtain ⟨p, hp, hpayload⟩ := htransmitter (by rw [ht]; rfl)
      obtain ⟨hlength, hend⟩ := hbegins.nlaLen around htable hp
      simp only [hattrs, ht, hp, Option.map_some, Int.ofNat_eq_natCast, hlength] at hhead ⊢
      refine ⟨fun a ha => ?_, nofun⟩
      rcases List.mem_append.mp ha with ha | ha
      · exact hhead a ha
      · exact frameAccesses_safe htable hp rfl hend hpayload a ha
  · rw [decodeTraced, if_pos hcmd]
    refine ⟨fun a ha => ?_, nofun⟩
    rw [List.mem_singleton.mp ha]
    exact ⟨Int.natCast_nonneg _, by omega⟩

theorem decode_begins {data dataLen : Int} {freq : TFrequency} (hbegins : Begins block message)
    (h : WellFormed libnl message)
    (hdecode : decode libnl (Memory.ofBlock block around) old = .frame data dataLen freq) :
    frameOf libnl message = some ((Memory.ofBlock block around).read data dataLen.toNat) := by
  obtain ⟨hlong, hattributes⟩ := h
  have hcmd : (Memory.ofBlock block around).cmd = HwsimCmd.frame.code := by
    by_contra hne
    rw [decode, if_pos hne] at hdecode
    cases hdecode
  have hframe := hbegins.cmd around hlong
  rw [hcmd] at hframe
  obtain ⟨table, htable, _⟩ := hattributes hframe
  exact decode_frameOf hbegins htable hdecode

end Accesses

/-- An accepted message is handled with nothing but what is in it exactly when it is
well-formed. -/
theorem handlesSafely_iff (libnl : Libnl) (s : CKernelWifi) (m : Unwritten) (oks : List Bool)
    (hne : (s.uplink.recvSignal m.power).valread ≠ socketError) :
    HandlesSafely libnl s (s.uplink.recvSignal m.power) m oks ↔
      WellFormed libnl (s.uplink.recvSignal m.power).message := by
  constructor
  · rintro ⟨_, haccesses⟩
    have hfirst : .bytes sizeofNlmsghdr 1 ∈ (decodeTraced libnl
        (Memory.ofBlock (s.uplink.recvSignal m.power).buffer.buffer m.around) m.attrs).1 := by
      unfold decodeTraced
      dsimp only
      split
      · exact List.mem_cons_self
      · split
        · exact List.mem_cons_self
        · split <;> exact List.mem_cons_self
    have hlong := (haccesses _ hfirst).2
    exact wellFormed_of_accesses (received_begins hne (by omega)) (by omega) haccesses
  · intro hwell
    have hbegins := received_begins hne hwell.command
    obtain ⟨haccesses, hnull⟩ := @accesses_of_wellFormed libnl _ _ m.around m.attrs hbegins
      hwell
    refine ⟨?_, haccesses⟩
    cases hdecode : decode libnl
        (Memory.ofBlock (s.uplink.recvSignal m.power).buffer.buffer m.around) m.attrs with
    | ignored =>
      obtain ⟨s', hs', hinjected⟩ := @handleSignal_ignored libnl s _ m oks hdecode
      exact ⟨s', hs', Or.inl hinjected⟩
    | nullFrame => exact absurd hdecode hnull
    | frame data dataLen freq =>
      obtain ⟨s', hs', hinjected⟩ := @handleSignal_frame libnl s _ m oks _ _ _ hdecode
      exact ⟨s', hs', Or.inr ⟨_, freq, decode_begins hbegins hwell hdecode, hinjected⟩⟩

/-- A client to which the bytes `sent` are on their way. -/
def receivingClient (sent : List UInt8) : CKernelWifi where
  hwsim := ⟨30, true, []⟩
  uplink := ⟨CSelect.init.addNode 5, some 5, true, ⟨[]⟩,
    ⟨fun _ => [sent], fun _ => [], [], fun _ => 0, [.accept 5]⟩⟩
  interfaces := Interfaces.init
  beingInitialized := false
  beingStarted := false

/-- The message of a frame of twelve bytes. -/
theorem handlesSafely_short :
    HandlesSafely Libnl.walk (receivingClient (236 :: Client.shortFrame))
      ((receivingClient (236 :: Client.shortFrame)).uplink.recvSignal 0)
      ⟨0, fun _ => none, fun _ => 0⟩ [] := by
  apply (handlesSafely_iff _ _ _ _ (by decide +kernel)).mpr
  have hmessage : ((receivingClient (236 :: Client.shortFrame)).uplink.recvSignal 0).message =
      Client.shortFrame := by
    decide +kernel
  have hparsed : (Libnl.walk.genlmsgParse hwsimAttrMax Client.shortFrame).map (fun table =>
      (table HwsimAttr.freq.code, table HwsimAttr.frame.code)) = some (none, some 32) := by
    decide +kernel
  obtain ⟨table, htable, heq⟩ := Option.map_eq_some_iff.mp hparsed
  obtain ⟨hfreq, hframe⟩ := Prod.mk.inj heq
  rw [hmessage]
  refine ⟨by decide +kernel, fun _ => ⟨table, htable, fun p hp => ?_, fun _ => ⟨32, hframe, ?_⟩⟩⟩
  · rw [hfreq] at hp
    cases hp
  · decide +kernel

/-- A message about a frame that holds none, only the address of its transmitter. -/
def frameless : List UInt8 :=
  [32, 0, 0, 0, 30, 0] ++ List.replicate 10 0 ++ [HwsimCmd.frame.code, 1, 0, 0] ++
    [10, 0, 2, 0, 66, 0, 0, 0, 1, 0, 0, 0]

/-- `recv_from_server` follows the null pointer it finds in the table. -/
theorem handlesSafely_fails :
    ((receivingClient (236 :: frameless)).uplink.recvSignal 0).valread = 32 ∧
      ¬ HandlesSafely Libnl.walk (receivingClient (236 :: frameless))
        ((receivingClient (236 :: frameless)).uplink.recvSignal 0)
        ⟨0, fun _ => none, fun _ => 0⟩ [] := by
  refine ⟨by decide +kernel, fun h => ?_⟩
  obtain ⟨s', hs', _⟩ := h.handled
  have hnull : ((receivingClient (236 :: frameless)).handleSignal Libnl.walk
      ((receivingClient (236 :: frameless)).uplink.recvSignal 0) (fun _ => none) (fun _ => 0)
      []).isSome = false := by
    decide +kernel
  rw [hs'] at hnull
  cases hnull

end CKernelWifi

end Vwifi
