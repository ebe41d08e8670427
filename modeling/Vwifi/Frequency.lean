import Vwifi.FrameSize

/-!
# The frequency of a forwarded message

`GetFrequency` does not look at the result of `genlmsg_parse`, and the server has
looked at nothing but the length of the message, and at that from above only. So
`Medium`, which stands for what the table leads to, is replaced by the parser and the
memory it works on.
-/

namespace Vwifi

set_option autoImplicit false

open LittleEndian

namespace Memory

/-- Writing the beginning of a block where the block stands changes nothing. -/
theorem ofBlock_take (block : List UInt8) (around : Memory) (n : Nat) :
    ofBlock (block.take n) (ofBlock block around) = ofBlock block around := by
  funext a
  by_cases ha : 0 ≤ a ∧ a < 0 + (block.take n).length
  · have hlt : (a - 0).toNat < (block.take n).length := by omega
    rw [List.length_take] at hlt
    have hin : 0 ≤ a ∧ a < 0 + (block.length : Int) := by omega
    rw [ofBlock, write, if_pos ha, ofBlock, write, if_pos hin, List.getD_eq_getElem?_getD,
      List.getD_eq_getElem?_getD, List.getElem?_take_of_lt (by omega)]
  · rw [ofBlock, write, if_neg ha]

end Memory

namespace CWifi

/-- `genlmsg_parse(nlh, 0, attrs, HWSIM_ATTR_FREQ, NULL)`: after an error the table is
what it was. -/
def freqAttrs (libnl : Libnl) (mem : Memory) (old : AttrTable) : AttrTable :=
  match libnl.genlmsgParse HwsimAttr.freq.code (mem.read 0 mem.nlmsgLen) with
  | none => old
  | some table => fun type => (table type).map Int.ofNat

/-- `GetFrequency`, on the memory that holds the message. -/
def getFrequencyAt (libnl : Libnl) (mem : Memory) (old : AttrTable) : TFrequency :=
  match freqAttrs libnl mem old HwsimAttr.freq.code with
  | some freq => mem.nlaGetU32 freq
  | none => defaultFrequency

end CWifi

/-- The medium in which the frequency is what `GetFrequency` finds in memory. -/
def Medium.parsing (medium : Medium) (libnl : Libnl) (old : AttrTable) (around : Memory) :
    Medium :=
  { medium with
    freqAttr := fun nlh =>
      (CWifi.freqAttrs libnl (Memory.ofBlock nlh around) old HwsimAttr.freq.code).map
        (Memory.ofBlock nlh around).nlaGetU32 }

namespace CWifi

theorem getFrequency_parsing (medium : Medium) (libnl : Libnl) (old : AttrTable)
    (around : Memory) (nlh : List UInt8) :
    getFrequency (medium.parsing libnl old around) nlh =
      getFrequencyAt libnl (Memory.ofBlock nlh around) old := by
  simp only [getFrequency, getFrequencyAt, Medium.parsing]
  cases freqAttrs libnl (Memory.ofBlock nlh around) old HwsimAttr.freq.code <;> rfl

/-- The value of an attribute for the frequency that has room for one. -/
def frequencyIn (libnl : Libnl) (message : List UInt8) : Option TFrequency :=
  (libnl.genlmsgParse HwsimAttr.freq.code message).bind fun table =>
    (table HwsimAttr.freq.code).bind fun p =>
      if nlaHdrlen + 4 ≤ value ((message.drop p).take 2) then
        some (UInt32.ofNat (value ((message.drop (p + nlaHdrlen)).take 4)))
      else none

/-- What is forwarded of a signal that was received. -/
def Received.frame (r : Received) : List UInt8 := r.buffer.buffer.take r.valread.toNat

/-- The memory in which `SendAllOtherClients` finds the signal. -/
def Received.memory (r : Received) (around : Memory) : Memory :=
  Memory.ofBlock r.buffer.buffer around

/-- The table was written before it is used, and the frequency is the one in the message
or the default. -/
structure FindsFrequency (libnl : Libnl) (r : Received) (old : AttrTable) (around : Memory) :
    Prop where
  written : (libnl.genlmsgParse HwsimAttr.freq.code r.frame).isSome
  value : ∀ medium : Medium,
    getFrequency (medium.parsing libnl old (r.memory around)) r.frame =
      (frequencyIn libnl r.frame).getD defaultFrequency

/-- The message has been parsed, and an attribute for the frequency holds four bytes, or
the four bytes behind its header make the default by chance. -/
def HasFrequency (libnl : Libnl) (r : Received) (around : Memory) : Prop :=
  ∃ table, libnl.genlmsgParse HwsimAttr.freq.code r.frame = some table ∧
    ∀ p, table HwsimAttr.freq.code = some p →
      nlaHdrlen + 4 ≤ value ((r.frame.drop p).take 2) ∨
        (r.memory around).nlaGetU32 p = defaultFrequency

section Receive

variable {libnl : Libnl} {k : Kernel} {d : TDescriptor} {power : TPower} {buffer : CDynBuffer}

/-- A message that can be parsed has a header, and it begins the buffer. -/
theorem recvSignal_begins {table : Nat → Option Nat} {maxtype : Nat}
    (hpositive : 0 < (recvSignalWithSocket k d power buffer).valread)
    (hparsed : libnl.genlmsgParse maxtype (recvSignalWithSocket k d power buffer).frame =
      some table) :
    Begins (recvSignalWithSocket k d power buffer).buffer.buffer
      (recvSignalWithSocket k d power buffer).frame := by
  have hne : (recvSignalWithSocket k d power buffer).valread ≠ socketError := by
    rw [socketError]
    omega
  obtain ⟨hlength, hvalue⟩ := recvSignal_message hne
  generalize recvSignalWithSocket k d power buffer = r at *
  have hheader := nlmsgLen_of_nonneg (by omega : 0 ≤ nlmsgLen r.message)
  have hframe : r.frame = r.message.take r.valread.toNat := by
    rw [Received.frame, Received.message, List.take_take, Nat.min_eq_left (Nat.le_max_right _ _)]
  have hfour : value (r.frame.take 4) ≤ r.valread.toNat := by
    have hle := value_take_le (r.message.take 4) r.valread.toNat
    rw [hframe, List.take_take, Nat.min_comm, ← List.take_take]
    omega
  have hlong : sizeofNlmsghdr ≤ r.valread.toNat := by
    by_contra hshort
    rw [libnl.short _ _ (by omega)] at hparsed
    cases hparsed
  have hmessage : r.frame = r.message := by
    rw [Received.frame, Received.message, Nat.max_eq_right hlong]
  rw [Nat.max_eq_right hlong] at hlength
  rw [hmessage]
  exact ⟨by rw [hlength, ← hmessage]; rfl, by omega, by omega⟩

section Parsed

variable {r : Received} {table : Nat → Option Nat} {old : AttrTable} {around : Memory}

/-- What is found once the message is parsed does not depend on what the table was. -/
theorem getFrequency_parsed (hbegins : Begins r.buffer.buffer r.frame)
    (htable : libnl.genlmsgParse HwsimAttr.freq.code r.frame = some table) (medium : Medium) :
    getFrequency (medium.parsing libnl old (r.memory around)) r.frame =
      match table HwsimAttr.freq.code with
      | some p => (r.memory around).nlaGetU32 p
      | none => defaultFrequency := by
  have hmemory : Memory.ofBlock r.frame (r.memory around) = r.memory around :=
    Memory.ofBlock_take _ _ _
  have hread : (r.memory around).read 0 (r.memory around).nlmsgLen = r.frame :=
    hbegins.read_nlmsgLen around
  rw [getFrequency_parsing, hmemory, getFrequencyAt, freqAttrs, hread, htable]
  dsimp only
  cases hp : table HwsimAttr.freq.code with
  | none => rfl
  | some p => rfl

theorem frequencyIn_parsed (htable : libnl.genlmsgParse HwsimAttr.freq.code r.frame = some table) :
    frequencyIn libnl r.frame = (table HwsimAttr.freq.code).bind fun p =>
      if nlaHdrlen + 4 ≤ value ((r.frame.drop p).take 2) then
        some (UInt32.ofNat (value ((r.frame.drop (p + nlaHdrlen)).take 4)))
      else none := by
  rw [frequencyIn, htable, Option.bind_some]

theorem nlaGetU32_room (hbegins : Begins r.buffer.buffer r.frame)
    (htable : libnl.genlmsgParse HwsimAttr.freq.code r.frame = some table) {p : Nat}
    (hp : table HwsimAttr.freq.code = some p)
    (hroom : nlaHdrlen + 4 ≤ value ((r.frame.drop p).take 2)) :
    (r.memory around).nlaGetU32 p =
      UInt32.ofNat (value ((r.frame.drop (p + nlaHdrlen)).take 4)) := by
  obtain ⟨_, hend⟩ := hbegins.nlaLen around htable hp
  have hread := @Begins.read _ _ hbegins around (p + nlaHdrlen) 4 (by omega)
  rw [Memory.nlaGetU32, Memory.nlaData]
  exact congrArg (fun bytes => UInt32.ofNat (value bytes)) hread

theorem frequency_parsed (hbegins : Begins r.buffer.buffer r.frame)
    (htable : libnl.genlmsgParse HwsimAttr.freq.code r.frame = some table) :
    (∀ medium : Medium, getFrequency (medium.parsing libnl old (r.memory around)) r.frame =
      (frequencyIn libnl r.frame).getD defaultFrequency) ↔
    ∀ p, table HwsimAttr.freq.code = some p →
      nlaHdrlen + 4 ≤ value ((r.frame.drop p).take 2) ∨
        (r.memory around).nlaGetU32 p = defaultFrequency := by
  constructor
  · intro h p hp
    by_cases hroom : nlaHdrlen + 4 ≤ value ((r.frame.drop p).take 2)
    · exact Or.inl hroom
    · have hvalue := h Medium.uniform
      rw [getFrequency_parsed hbegins htable, frequencyIn_parsed htable, hp, Option.bind_some,
        if_neg hroom] at hvalue
      exact Or.inr hvalue
  · intro h medium
    rw [getFrequency_parsed hbegins htable, frequencyIn_parsed htable]
    cases hp : table HwsimAttr.freq.code with
    | none => rfl
    | some p =>
      rw [Option.bind_some]
      by_cases hroom : nlaHdrlen + 4 ≤ value ((r.frame.drop p).take 2)
      · rw [if_pos hroom]
        exact nlaGetU32_room hbegins htable hp hroom
      · rw [if_neg hroom]
        exact (h p hp).resolve_left hroom

end Parsed

/-- The frequency is found as it should be exactly when the message has been parsed and
its attribute for the frequency, if there is one, holds a frequency. -/
theorem findsFrequency_iff (libnl : Libnl) (k : Kernel) (d : TDescriptor) (power : TPower)
    (buffer : CDynBuffer) (old : AttrTable) (around : Memory)
    (hpositive : 0 < (recvSignalWithSocket k d power buffer).valread) :
    FindsFrequency libnl (recvSignalWithSocket k d power buffer) old around ↔
      HasFrequency libnl (recvSignalWithSocket k d power buffer) around := by
  have hbegins := fun table => @recvSignal_begins libnl k d power buffer table HwsimAttr.freq.code
    hpositive
  generalize recvSignalWithSocket k d power buffer = r at *
  constructor
  · rintro ⟨hwritten, hvalue⟩
    obtain ⟨table, htable⟩ := Option.isSome_iff_exists.mp hwritten
    exact ⟨table, htable, (frequency_parsed (hbegins table htable) htable).mp hvalue⟩
  · rintro ⟨table, htable, hattribute⟩
    refine ⟨by rw [htable]; rfl, ?_⟩
    exact (frequency_parsed (hbegins table htable) htable).mpr hattribute

end Receive

/-- A message with a frequency of 2437. -/
def tuned : List UInt8 :=
  frameHeaders 28 ++ Attributes.layout [⟨HwsimAttr.freq.code, image 4 2437, by decide, by decide⟩]

theorem findsFrequency_tuned :
    FindsFrequency Libnl.walk (recvSignalWithSocket (servingKernel (236 :: tuned)) 7 0 ⟨[]⟩)
      (fun _ => none) (fun _ => 0) := by
  apply (findsFrequency_iff _ _ _ _ _ _ _ (by decide +kernel)).mpr
  have hframe : (recvSignalWithSocket (servingKernel (236 :: tuned)) 7 0 ⟨[]⟩).frame = tuned := by
    decide +kernel
  have hparsed : (Libnl.walk.genlmsgParse HwsimAttr.freq.code tuned).map (fun table =>
      table HwsimAttr.freq.code) = some (some 20) := by
    decide +kernel
  obtain ⟨table, htable, hfreq⟩ := Option.map_eq_some_iff.mp hparsed
  rw [HasFrequency, hframe]
  refine ⟨table, htable, fun p hp => Or.inl ?_⟩
  cases hfreq.symm.trans hp
  decide +kernel

/-- A message that is nothing but its header leaves the table unwritten: the frequency
is read through what the stack happens to hold. -/
theorem findsFrequency_fails :
    (recvSignalWithSocket (servingKernel (236 :: image 4 16 ++ List.replicate 12 0)) 7 0
        ⟨[]⟩).valread = 16 ∧
      ¬ FindsFrequency Libnl.walk
        (recvSignalWithSocket (servingKernel (236 :: image 4 16 ++ List.replicate 12 0)) 7 0 ⟨[]⟩)
        (fun _ => some 0) (fun _ => 0) := by
  refine ⟨by decide +kernel, fun h => ?_⟩
  have hwritten := h.written
  revert hwritten
  decide +kernel

end CWifi

/-- The level a recipient hears depends on the frequency that is found. -/
theorem signalLevel_parsing (medium : Medium) (libnl : Libnl) (old : AttrTable) (around : Memory)
    (scale : TScale) (coo : CCoordinate) (power : TPower) (data : List UInt8) (e : Entry) :
    signalLevel (medium.parsing libnl old around) scale coo power data e =
      CWifi.boundedPower (power.toInt32 -
        CWifi.attenuation medium (coo.distanceWith medium scale e.info.toCCoordinate)
          (CWifi.getFrequencyAt libnl (Memory.ofBlock data around) old)) := by
  rw [signalLevel, CWifi.getFrequency_parsing]
  rfl

end Vwifi
