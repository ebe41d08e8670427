import Vwifi.InetEvent

/-!
# Link messages in the buffer

`new_net_interface` and `del_net_interface` walk over the attributes of a message with
`RTA_OK` and `RTA_NEXT` and keep the last one of each type. What the walk finds depends
on the bytes of the message alone; the name and the address are then read without a
look at the length of their attribute. `new_net_interface` reads the name of a link that
has no address too.
-/

namespace Vwifi

set_option autoImplicit false

open LittleEndian Attributes

/-- `sizeof(struct ifinfomsg)` -/
def sizeofIfinfomsg : Nat := 16

/-- `sizeof(struct rtattr)` -/
def sizeofRtattr : Nat := 4

def iflaAddress : Nat := 1
def iflaIfname : Nat := 3

theorem iflaAddress_fits : iflaAddress < 2 ^ 14 := by
  decide

theorem iflaIfname_fits : iflaIfname < 2 ^ 14 := by
  decide

/-- `NLMSG_LENGTH(sizeof(struct ifinfomsg))` -/
def linkHeaders : Nat := sizeofNlmsghdr + sizeofIfinfomsg

namespace Memory

def rtaLen (mem : Memory) (rta : Int) : Nat := value (mem.read rta 2)

def rtaType (mem : Memory) (rta : Int) : Nat := value (mem.read (rta + 2) 2)

/-- `RTA_DATA` -/
def rtaData (rta : Int) : Int := rta + sizeofRtattr

/-- `ifi->ifi_type` of the message at an address. -/
def ifiType (mem : Memory) (header : Int) : UInt16 :=
  UInt16.ofNat (value (mem.read (header + sizeofNlmsghdr + 2) 2))

/-- `ifi->ifi_index` of the message at an address. -/
def ifiIndex (mem : Memory) (header : Int) : UInt32 :=
  UInt32.ofNat (value (mem.read (header + sizeofNlmsghdr + 4) 4))

/-- `std::string(name)`: none when no zero byte ends it within the buffer. -/
def stringAt (mem : Memory) (name : Int) : Option CString :=
  let bytes := mem.read name (iflistReplyBuffer - name).toNat
  if 0 ∈ bytes then some (CString.ofBuffer bytes) else none

end Memory

/-- The variables `rta` and `len`. -/
structure AttrCursor where
  rta : Int
  len : Int32

namespace AttrCursor

/-- `RTA_OK(rta, len)` -/
def ok (mem : Memory) (c : AttrCursor) : Bool :=
  (sizeofRtattr ≤ c.len.toInt && sizeofRtattr ≤ mem.rtaLen c.rta) &&
    mem.rtaLen c.rta ≤ c.len.toInt

/-- `RTA_NEXT(rta, len)` -/
def next (mem : Memory) (c : AttrCursor) : AttrCursor where
  rta := c.rta + align (mem.rtaLen c.rta)
  len := c.len - Int32.ofNat (align (mem.rtaLen c.rta))

/-- `IFLA_RTA(ifi)`, and what is left of the message behind it. -/
def ofMessage (mem : Memory) (header : Int) : AttrCursor where
  rta := header + linkHeaders
  len := (mem.nlmsgLenAt header - UInt32.ofNat linkHeaders).toInt32

/-- `tb[rta->rta_type] = rta` -/
def keep (iflaMax : Nat) (mem : Memory) (c : AttrCursor) (tb : AttrTable) : AttrTable :=
  if mem.rtaType c.rta ≤ iflaMax then Function.update tb (mem.rtaType c.rta) (some c.rta) else tb

end AttrCursor

/-- The loop over the attributes: none when it is still running after so many rounds. -/
def attrLoop (iflaMax : Nat) (mem : Memory) : Nat → AttrCursor → AttrTable → Option AttrTable
  | 0, _, _ => none
  | rounds + 1, c, tb =>
    if c.ok mem then attrLoop iflaMax mem rounds (c.next mem) (c.keep iflaMax mem tb) else some tb

/-- `tb` behind the loop. -/
def linkTable (iflaMax : Nat) (mem : Memory) (header : Int) : Option AttrTable :=
  attrLoop iflaMax mem ((mem.nlmsgLenAt header).toNat + 1) (AttrCursor.ofMessage mem header)
    fun _ => none

namespace Dispatch

/-- Whether the function reads the name only behind the test for an address. -/
def asksAddress : Dispatch → Bool
  | newNetInterface _ => false
  | delNetInterface _ => true

/-- Whether the function goes on with these attributes, and does not return at once. -/
def goesOn (d : Dispatch) (tb : AttrTable) : Bool :=
  (tb iflaIfname).isSome && (!d.asksAddress || (tb iflaAddress).isSome)

end Dispatch

/-- What a function takes from its message, nothing when it does not go on; no result when
the name runs out of the buffer. -/
def linkAt (iflaMax : Nat) (mem : Memory) (d : Dispatch) : Option (Option Link) :=
  match linkTable iflaMax mem d.header with
  | none => none
  | some tb =>
    match if d.goesOn tb then tb iflaIfname else none with
    | none => some none
    | some rta =>
      (mem.stringAt (Memory.rtaData rta)).map fun name =>
        some ⟨mem.ifiIndex d.header, mem.ifiType d.header, some name,
          (tb iflaAddress).map fun rta => mem.etherAddr (Memory.rtaData rta)⟩

/-! ## The walk over the attributes of a message -/

section Walk

variable {iflaMax : Nat} {block : List UInt8} {stack : Memory} {p stop : Nat} {c : AttrCursor}

/-- What of the received bytes is left of a message that ends at `stop`. -/
def window (block : List UInt8) (stop p : Nat) : List UInt8 := (block.take stop).drop p

/-- The cursor stands at the place `p` of a message that ends at `stop`: it may be behind
the end when the padding of the last attribute is missing. -/
structure AttrCursor.At (block : List UInt8) (stop p : Nat) (c : AttrCursor) : Prop where
  rta : c.rta = p
  left : c.len.toInt = (stop : Int) - p
  within : stop ≤ block.length

/-- The table with the entries of a scan. -/
def kept (iflaMax : Nat) (entries : List Entry) (tb : AttrTable) : AttrTable := fun type =>
  if type ≤ iflaMax then ((lookup entries type).map fun e => (e.position : Int)).or (tb type)
  else tb type

theorem kept_nil (tb : AttrTable) : kept iflaMax [] tb = tb := by
  funext type
  rw [kept]
  split
  · rfl
  · rfl

/-- An entry counts when no later one has its type. -/
theorem kept_cons (e : Entry) (entries : List Entry) (tb : AttrTable) :
    kept iflaMax (e :: entries) tb = kept iflaMax entries
      (if e.type ≤ iflaMax then Function.update tb e.type (some (e.position : Int)) else tb) := by
  funext type
  rw [kept, kept, lookup_cons]
  by_cases hmax : type ≤ iflaMax
  · rw [if_pos hmax, if_pos hmax]
    cases lookup entries type with
    | some found => rfl
    | none =>
      by_cases htype : e.type = type
      · subst htype
        simp [hmax]
      · rw [if_neg htype]
        split
        · simp [Function.update_of_ne (Ne.symm htype)]
        · simp
  · rw [if_neg hmax, if_neg hmax]
    split
    · rename_i hkept
      rw [Function.update_of_ne]
      rintro rfl
      exact hmax hkept
    · rfl

theorem window_length (h : stop ≤ block.length) : (window block stop p).length = stop - p := by
  rw [window, List.length_drop, List.length_take_of_le h]

namespace AttrCursor.At

theorem read (h : c.At block stop p) (stack : Memory) (offset size : Nat)
    (hin : p + offset + size ≤ stop) :
    (Memory.ofBlock block stack).read (c.rta + offset) size =
      ((window block stop p).drop offset).take size := by
  have hread := @Memory.ofBlock_read_take block stop (p + offset) size stack h.within hin
  rw [h.rta, window, List.drop_drop, ← hread]
  rfl

theorem rtaLen (h : c.At block stop p) (stack : Memory) (hin : p + 2 ≤ stop) :
    (Memory.ofBlock block stack).rtaLen c.rta = value ((window block stop p).take 2) := by
  have hread := h.read stack 0 2 (by omega)
  rw [Nat.cast_zero, add_zero, List.drop_zero] at hread
  rw [Memory.rtaLen, hread]

theorem rtaType (h : c.At block stop p) (stack : Memory) (hin : p + 4 ≤ stop) :
    (Memory.ofBlock block stack).rtaType c.rta = value (((window block stop p).drop 2).take 2) := by
  have hread := h.read stack 2 2 (by omega)
  rw [Memory.rtaType, ← hread]
  rfl

/-- `RTA_OK` is the test of a scan. -/
theorem ok_iff (h : c.At block stop p) (stack : Memory) :
    c.ok (Memory.ofBlock block stack) = true ↔
      headerSize ≤ (window block stop p).length ∧
        headerSize ≤ value ((window block stop p).take 2) ∧
          value ((window block stop p).take 2) ≤ (window block stop p).length := by
  rw [AttrCursor.ok, Bool.and_eq_true, Bool.and_eq_true, decide_eq_true_eq, decide_eq_true_eq,
    decide_eq_true_eq, h.left, window_length h.within, sizeofRtattr, headerSize, and_assoc]
  by_cases hsize : p + 4 ≤ stop
  · rw [h.rtaLen stack (by omega)]
    omega
  · omega

theorem next (h : c.At block stop p) (stack : Memory) (hin : p + 4 ≤ stop)
    (hfits : block.length ≤ iflistReplyBuffer)
    (hlast : value ((window block stop p).take 2) ≤ stop - p) :
    (c.next (Memory.ofBlock block stack)).At block stop
      (p + align (value ((window block stop p).take 2))) := by
  have hlen := h.rtaLen stack (by omega)
  have hwithin := h.within
  have halign : align (value ((window block stop p).take 2)) ≤ stop - p + 3 := by
    rw [align]
    omega
  rw [iflistReplyBuffer] at hfits
  have hof : (Int32.ofNat (align (value ((window block stop p).take 2)))).toInt =
      align (value ((window block stop p).take 2)) :=
    Int32.toInt_ofNat_of_lt (by omega)
  refine ⟨?_, ?_, hwithin⟩
  · rw [AttrCursor.next, hlen, h.rta]
    rfl
  · have hexact := Signed.toInt_sub_iff (a := c.len)
      (b := Int32.ofNat (align (value ((window block stop p).take 2))))
    rw [hof, h.left] at hexact
    rw [AttrCursor.next, hlen]
    dsimp only
    rw [hexact.mpr (by constructor <;> omega)]
    omega

end AttrCursor.At

/-- The loop ends, and its table is that of a scan of the message. -/
theorem attrLoop_eq (stack : Memory) (rounds : Nat) (tb : AttrTable)
    (hfits : block.length ≤ iflistReplyBuffer) (h : c.At block stop p)
    (hrounds : (window block stop p).length < rounds) :
    attrLoop iflaMax (Memory.ofBlock block stack) rounds c tb =
      some (kept iflaMax (scanRaw rounds p (window block stop p)) tb) := by
  induction rounds generalizing p c tb with
  | zero => omega
  | succ rounds ih =>
    have hok := h.ok_iff stack
    rw [attrLoop, scanRaw]
    split
    · rename_i hrun
      obtain ⟨hsize, hheader, hlast⟩ := hok.mp hrun
      have hlength := @window_length block p stop h.within
      rw [headerSize] at hsize hheader
      have hle := le_align (value ((window block stop p).take 2))
      have hdrop : window block stop (p + align (value ((window block stop p).take 2))) =
          (window block stop p).drop (align (value ((window block stop p).take 2))) := by
        rw [window, window, List.drop_drop]
      have hnext := h.next stack (by omega) hfits (by omega)
      rw [if_pos (hok.mp hrun), ih _ hnext, hdrop]
      · rw [kept_cons, AttrCursor.keep, h.rtaType stack (by omega), h.rta]
      · rw [hdrop, List.length_drop]
        omega
    · rename_i hrun
      rw [if_neg (mt hok.mpr hrun), kept_nil]

end Walk

/-! ## One message -/

section Message

variable {iflaMax : Nat} {block : List UInt8} {header : Nat}

/-- A whole message stands at the place `header` of the received bytes. -/
structure WholeAt (block : List UInt8) (header : Nat) : Prop where
  whole : WholeFirst (block.drop header)
  fits : block.length ≤ iflistReplyBuffer

/-- Where a message ends. -/
def stopOf (block : List UInt8) (header : Nat) : Nat :=
  header + value ((block.drop header).take 4)

/-- The table of the message at `header`. -/
def tableOf (iflaMax : Nat) (block : List UInt8) (header : Nat) : AttrTable :=
  kept iflaMax (scanRaw (value ((block.drop header).take 4) + 1) (header + linkHeaders)
    (window block (stopOf block header) (header + linkHeaders))) fun _ => none

namespace WholeAt

variable (h : WholeAt block header)
include h

theorem bounds : sizeofNlmsghdr ≤ value ((block.drop header).take 4) ∧
    stopOf block header ≤ block.length := by
  obtain ⟨hsize, hheader, hlast⟩ := h.whole
  rw [List.length_drop] at hsize hlast
  rw [sizeofNlmsghdr] at hsize
  rw [stopOf]
  exact ⟨hheader, by omega⟩

theorem nlmsgLenAt (stack : Memory) : ((Memory.ofBlock block stack).nlmsgLenAt header).toNat =
    value ((block.drop header).take 4) := by
  obtain ⟨hheader, hstop⟩ := h.bounds
  rw [sizeofNlmsghdr] at hheader
  rw [stopOf] at hstop
  exact nlmsgLenAt_block (by omega)

theorem cursor (stack : Memory) :
    (AttrCursor.ofMessage (Memory.ofBlock block stack) header).At block (stopOf block header)
      (header + linkHeaders) := by
  have hfits := h.fits
  obtain ⟨_, hstop⟩ := h.bounds
  have hlength := h.nlmsgLenAt stack
  have hbefore := hstop
  rw [stopOf] at hbefore
  rw [iflistReplyBuffer] at hfits
  refine ⟨rfl, ?_, hstop⟩
  have hlen : ((Memory.ofBlock block stack).nlmsgLenAt header).toInt32.toInt =
      value ((block.drop header).take 4) := by
    have hcond := Signed.toInt_eq_cond ((Memory.ofBlock block stack).nlmsgLenAt header).toInt32
    rw [UInt32.toUInt32_toInt32, hlength, if_pos (by omega)] at hcond
    exact hcond
  have hheaders : (UInt32.ofNat linkHeaders).toInt32.toInt = 32 := rfl
  have hexact := Signed.toInt_sub_iff
    (a := ((Memory.ofBlock block stack).nlmsgLenAt header).toInt32)
    (b := (UInt32.ofNat linkHeaders).toInt32)
  rw [hlen, hheaders] at hexact
  rw [AttrCursor.ofMessage, UInt32.toInt32_sub]
  dsimp only
  rw [hexact.mpr (by constructor <;> omega), stopOf, linkHeaders, sizeofNlmsghdr, sizeofIfinfomsg]
  omega

/-- What the loop finds in a message does not depend on what lies around it. -/
theorem linkTable (stack : Memory) :
    linkTable iflaMax (Memory.ofBlock block stack) header =
      some (tableOf iflaMax block header) := by
  rw [Vwifi.linkTable, h.nlmsgLenAt stack]
  apply attrLoop_eq stack _ _ h.fits (h.cursor stack)
  rw [window_length h.bounds.2, stopOf]
  omega

end WholeAt

/-- An attribute of the message at `header` that lies within it. -/
structure Recorded (block : List UInt8) (header type rta : Nat) : Prop where
  behind : header + linkHeaders ≤ rta
  size : sizeofRtattr ≤ value ((block.drop rta).take 2)
  type : value ((block.drop (rta + 2)).take 2) = type
  within : rta + value ((block.drop rta).take 2) ≤ stopOf block header

/-- What the function reads of the name and of the address has been received. -/
def Readable (block : List UInt8) (d : Dispatch) (tb : AttrTable) : Prop :=
  d.goesOn tb = true → ∀ name : Nat, tb iflaIfname = some (name : Int) →
    0 ∈ block.drop (name + sizeofRtattr) ∧
      ∀ address : Nat, tb iflaAddress = some (address : Int) →
        address + sizeofRtattr + ethAlen ≤ block.length

theorem window_read {stop p offset size : Nat} (hp : p ≤ offset) (h : offset + size ≤ stop) :
    ((window block stop p).drop (offset - p)).take size = (block.drop offset).take size := by
  have hoffset : p + (offset - p) = offset := by omega
  rw [window, List.drop_drop, hoffset, List.drop_take, List.take_take]
  congr 1
  omega

/-- Whatever the loop records lies within the message. -/
theorem tableOf_recorded (h : WholeAt block header) {type : Nat} {rta : Int}
    (hrta : tableOf iflaMax block header type = some rta) :
    type ≤ iflaMax ∧ ∃ p : Nat, rta = p ∧ Recorded block header type p := by
  rw [tableOf, kept] at hrta
  split at hrta
  · rename_i hmax
    rw [Option.or_none] at hrta
    obtain ⟨e, hlookup, rfl⟩ := Option.map_eq_some_iff.mp hrta
    obtain ⟨hmem, htype⟩ := lookup_mem hlookup
    obtain ⟨hposition, hheader, hend⟩ := scanRaw_inside hmem
    have hlength := scanRaw_length hmem
    have hraw := scanRaw_type hmem
    rw [headerSize] at hheader
    rw [window_length h.bounds.2] at hend
    have hbefore : e.position + e.length ≤ stopOf block header := by omega
    have hsplit : e.position - (header + linkHeaders) + 2 =
        e.position + 2 - (header + linkHeaders) := by omega
    rw [window_read hposition (by omega)] at hlength
    rw [hsplit, window_read (by omega) (by omega), htype] at hraw
    exact ⟨hmax, e.position, rfl, hposition, by rw [hlength]; exact hheader, hraw,
      by rw [hlength]; exact hbefore⟩
  · cases hrta

/-- A function that goes on takes the link from behind the name. -/
theorem linkAt_eq (h : WholeAt block header) (stack : Memory) {d : Dispatch}
    (hd : d.header = header) (hgoes : d.goesOn (tableOf iflaMax block header) = true) {name : Nat}
    (hname : tableOf iflaMax block header iflaIfname = some (name : Int)) :
    linkAt iflaMax (Memory.ofBlock block stack) d =
      ((Memory.ofBlock block stack).stringAt (name + sizeofRtattr : Nat)).map fun name =>
        some ⟨(Memory.ofBlock block stack).ifiIndex header,
          (Memory.ofBlock block stack).ifiType header, some name,
          (tableOf iflaMax block header iflaAddress).map fun rta =>
            (Memory.ofBlock block stack).etherAddr (Memory.rtaData rta)⟩ := by
  rw [linkAt, hd, h.linkTable stack]
  dsimp only
  rw [if_pos hgoes, hname]
  rfl

theorem linkAt_none (h : WholeAt block header) (stack : Memory) {d : Dispatch}
    (hd : d.header = header) (hgoes : d.goesOn (tableOf iflaMax block header) = false) :
    linkAt iflaMax (Memory.ofBlock block stack) d = some none := by
  rw [linkAt, hd, h.linkTable stack]
  dsimp only
  rw [if_neg (Bool.eq_false_iff.mp hgoes)]

/-- A function that goes on has found a name. -/
theorem goesOn_name (h : WholeAt block header) {d : Dispatch}
    (hgoes : d.goesOn (tableOf iflaMax block header) = true) :
    ∃ name : Nat, tableOf iflaMax block header iflaIfname = some (name : Int) ∧
      Recorded block header iflaIfname name := by
  rw [Dispatch.goesOn, Bool.and_eq_true] at hgoes
  obtain ⟨rta, hname⟩ := Option.isSome_iff_exists.mp hgoes.1
  obtain ⟨_, name, rfl, hrecorded⟩ := tableOf_recorded h hname
  exact ⟨name, hname, hrecorded⟩

end Message

/-! ## What is read behind the received bytes -/

section Behind

variable {block : List UInt8}

/-- A read that reaches the end of the block goes on with what lies behind it. -/
theorem ofBlock_read_across (stack : Memory) {start size : Nat} (hstart : start ≤ block.length)
    (hend : block.length ≤ start + size) :
    (Memory.ofBlock block stack).read start size =
      block.drop start ++ stack.read block.length (start + size - block.length) := by
  have hsplit : size = (block.length - start) + (start + size - block.length) := by omega
  have hfirst := @Memory.ofBlock_read block start (block.length - start) stack (by omega)
  rw [List.take_of_length_le (Nat.le_of_eq List.length_drop)] at hfirst
  have hbehind := @Memory.ofBlock_read_behind block stack block.length
    (start + size - block.length) (Int.le_refl _)
  rw [← hfirst, ← hbehind]
  conv_lhs => rw [hsplit]
  rw [Memory.read, Memory.read, Memory.read, List.range_add, List.map_append, List.map_map]
  congr 1
  apply List.map_congr_left
  intro i _
  rw [Function.comp_apply]
  congr 1
  omega

theorem stringAt_received (stack : Memory) {name : Nat} (hfits : block.length ≤ iflistReplyBuffer)
    (h : 0 ∈ block.drop name) :
    (Memory.ofBlock block stack).stringAt name = some (CString.ofBuffer (block.drop name)) := by
  have hname : name ≤ block.length := by
    by_contra hbehind
    rw [List.drop_eq_nil_of_le (by omega)] at h
    cases h
  have hsize : ((iflistReplyBuffer : Int) - (name : Int)).toNat = iflistReplyBuffer - name := by
    omega
  rw [Memory.stringAt, hsize, ofBlock_read_across stack hname (by omega),
    (CString.ofBuffer_append h _).1]
  exact if_pos (List.mem_append_left _ h)

/-- Without a zero byte behind it the name may run out of the buffer. -/
theorem stringAt_behind {name : Nat} (hfits : block.length ≤ iflistReplyBuffer)
    (hname : name ≤ block.length) (h : 0 ∉ block.drop name) :
    (Memory.ofBlock block fun _ => 1).stringAt name = none := by
  have hsize : ((iflistReplyBuffer : Int) - (name : Int)).toNat = iflistReplyBuffer - name := by
    omega
  rw [Memory.stringAt, hsize, ofBlock_read_across _ hname (by omega)]
  apply if_neg
  intro hmem
  rcases List.mem_append.mp hmem with hmem | hmem
  · exact h hmem
  · rw [Memory.read] at hmem
    obtain ⟨_, _, hone⟩ := List.mem_map.mp hmem
    cases hone

theorem etherAddr_received (stack stack' : Memory) {p : Nat} (h : p + ethAlen ≤ block.length) :
    (Memory.ofBlock block stack).etherAddr p = (Memory.ofBlock block stack').etherAddr p := by
  apply EtherAddr.ext_octets
  exact (Memory.ofBlock_read stack h).trans (Memory.ofBlock_read stack' h).symm

theorem etherAddr_behind {p : Nat} (h : block.length < p + ethAlen) :
    (Memory.ofBlock block fun _ => 0).etherAddr p ≠
      (Memory.ofBlock block fun _ => 1).etherAddr p := by
  intro heq
  have hlast : ∀ b : UInt8,
      ((Memory.ofBlock block fun _ => b).etherAddr p).octets[5]? = some b := by
    intro b
    rw [ethAlen] at h
    simp only [Memory.etherAddr, Memory.read, ethAlen, List.getElem?_map, Memory.ofBlock,
      Memory.write]
    rw [List.getElem?_range (by decide), Option.map_some, if_neg (by omega)]
  have hzero := hlast 0
  rw [heq, hlast 1] at hzero
  cases hzero

end Behind

section Stable

variable {iflaMax : Nat} {block : List UInt8} {header : Nat} (h : WholeAt block header)
include h

/-- A message with an attribute is long enough for its headers. -/
theorem Recorded.headers {type rta : Nat} (hrecorded : Recorded block header type rta) :
    header + linkHeaders + sizeofRtattr ≤ block.length := by
  obtain ⟨hbehind, hsize, _, hwithin⟩ := hrecorded
  have hstop := h.bounds.2
  omega

/-- The name and the address of a readable message are received bytes. -/
theorem linkAt_readable {d : Dispatch} (hd : d.header = header)
    (hgoes : d.goesOn (tableOf iflaMax block header) = true) {name : Nat}
    (hname : tableOf iflaMax block header iflaIfname = some (name : Int))
    (hreadable : Readable block d (tableOf iflaMax block header)) (stack : Memory) :
    linkAt iflaMax (Memory.ofBlock block stack) d =
      some (some ⟨(Memory.ofBlock block fun _ => 0).ifiIndex header,
        (Memory.ofBlock block fun _ => 0).ifiType header,
        some (CString.ofBuffer (block.drop (name + sizeofRtattr))),
        (tableOf iflaMax block header iflaAddress).map fun rta =>
          (Memory.ofBlock block fun _ => 0).etherAddr (Memory.rtaData rta)⟩) := by
  obtain ⟨_, p, hp, hrecorded⟩ := tableOf_recorded h hname
  have hheaders := hrecorded.headers h
  rw [linkHeaders, sizeofNlmsghdr, sizeofIfinfomsg, sizeofRtattr] at hheaders
  obtain ⟨hnul, haddress⟩ := hreadable hgoes name hname
  have hindex : (Memory.ofBlock block stack).ifiIndex header =
      (Memory.ofBlock block fun _ => 0).ifiIndex header := by
    have hread := fun around => @Memory.ofBlock_read block (header + sizeofNlmsghdr + 4) 4 around
      (by rw [sizeofNlmsghdr]; omega)
    exact congrArg (fun bytes => UInt32.ofNat (value bytes)) ((hread stack).trans (hread _).symm)
  have htype : (Memory.ofBlock block stack).ifiType header =
      (Memory.ofBlock block fun _ => 0).ifiType header := by
    have hread := fun around => @Memory.ofBlock_read block (header + sizeofNlmsghdr + 2) 2 around
      (by rw [sizeofNlmsghdr]; omega)
    exact congrArg (fun bytes => UInt16.ofNat (value bytes)) ((hread stack).trans (hread _).symm)
  have hether : (tableOf iflaMax block header iflaAddress).map (fun rta =>
        (Memory.ofBlock block stack).etherAddr (Memory.rtaData rta)) =
      (tableOf iflaMax block header iflaAddress).map fun rta =>
        (Memory.ofBlock block fun _ => 0).etherAddr (Memory.rtaData rta) := by
    cases haddr : tableOf iflaMax block header iflaAddress with
    | none => rfl
    | some rta =>
      obtain ⟨_, address, rfl, _⟩ := tableOf_recorded h haddr
      have hread := etherAddr_received stack (fun _ => 0) (haddress address haddr)
      exact congrArg some hread
  rw [linkAt_eq h stack hd hgoes hname, stringAt_received stack h.fits hnul, hindex, htype, hether]
  rfl

/-- What a function takes from its message depends on the received bytes alone exactly
when these hold the end of the name and the address, as far as it reads them. -/
theorem linkAt_stable_iff {d : Dispatch} (hd : d.header = header) :
    (∃ link, ∀ stack, linkAt iflaMax (Memory.ofBlock block stack) d = some link) ↔
      Readable block d (tableOf iflaMax block header) := by
  have hfits := h.fits
  constructor
  · rintro ⟨link, hlink⟩ hgoes name hname
    obtain ⟨_, p, hp, hrecorded⟩ := tableOf_recorded h hname
    obtain rfl : name = p := Int.ofNat.inj hp
    have hend := hrecorded.within
    have hsize := hrecorded.size
    have hstop := h.bounds.2
    have hnul : 0 ∈ block.drop (name + sizeofRtattr) := by
      by_contra hnone
      have heq := hlink fun _ => 1
      rw [linkAt_eq h _ hd hgoes hname, stringAt_behind hfits (by omega) hnone] at heq
      cases heq
    refine ⟨hnul, fun address haddress => ?_⟩
    by_contra hshort
    have hzero := hlink fun _ => 0
    have hone := hlink fun _ => 1
    rw [linkAt_eq h _ hd hgoes hname, haddress, stringAt_received _ hfits hnul] at hzero hone
    have heq := Option.some.inj (hzero.trans hone.symm)
    have haddr := congrArg Link.address (Option.some.inj heq)
    have hbehind : block.length < address + sizeofRtattr + ethAlen := by omega
    exact etherAddr_behind hbehind (Option.some.inj haddr)
  · intro hreadable
    cases hgoes : d.goesOn (tableOf iflaMax block header) with
    | false => exact ⟨none, fun stack => linkAt_none h stack hd hgoes⟩
    | true =>
      obtain ⟨name, hname, _⟩ := goesOn_name h hgoes
      exact ⟨_, linkAt_readable h hd hgoes hname hreadable⟩

end Stable

/-! ## All messages of a datagram -/

section Datagram

variable {block : List UInt8}

theorem Cursor.At.dispatch {p : Nat} {c : Cursor} (h : c.At block p) (stack : Memory)
    (hwhole : WholeFirst (block.drop p)) :
    c.dispatch (Memory.ofBlock block stack) =
      Cursor.dispatch (Memory.ofBlock block fun _ => 0) ⟨p, 0⟩ := by
  have hsize := hwhole.1
  rw [sizeofNlmsghdr, List.length_drop] at hsize
  have hread := fun around => @Memory.ofBlock_read block (p + 4) 2 around (by omega)
  have htype : (Memory.ofBlock block stack).nlmsgTypeAt p =
      (Memory.ofBlock block fun _ => 0).nlmsgTypeAt p :=
    congrArg value ((hread stack).trans (hread _).symm)
  rw [Cursor.dispatch, Cursor.dispatch, h.header, htype]

/-- What the loop dispatches depends on the received bytes alone: whole messages. -/
theorem messageLoop_whole (rounds : Nat) {p : Nat} (hfits : block.length ≤ iflistReplyBuffer)
    (hp : p ≤ block.length) (hrounds : block.length - p < rounds)
    (hpadded : padded (block.drop p) = true) :
    ∃ dispatched,
      (∀ stack c, Cursor.At block p c →
        messageLoop (Memory.ofBlock block stack) rounds c = some dispatched) ∧
      ∀ d ∈ dispatched, ∃ header : Nat, d.header = header ∧ WholeAt block header := by
  induction rounds generalizing p with
  | zero => omega
  | succ rounds ih =>
    by_cases hwhole : WholeFirst (block.drop p)
    · rw [padded, dif_pos hwhole, Bool.and_eq_true, decide_eq_true_eq, List.drop_drop] at hpadded
      obtain ⟨hpadding, hrest⟩ := hpadded
      have hle := le_align (value ((block.drop p).take 4))
      obtain ⟨hsize, hheader, hlast⟩ := id hwhole
      rw [List.length_drop] at hsize hlast
      rw [sizeofNlmsghdr] at hsize hheader
      have hnext := hpadding
      rw [List.length_drop] at hnext
      obtain ⟨dispatched, hloop, hall⟩ := ih (by omega) (by omega) hrest
      refine ⟨Cursor.dispatch (Memory.ofBlock block fun _ => 0) ⟨p, 0⟩ ++ dispatched,
        fun stack c hc => ?_, fun d hd => ?_⟩
      · rw [messageLoop, if_pos ((hc.ok_iff stack).mpr hwhole),
          hloop stack _ (hc.next stack hwhole hfits hpadding), hc.dispatch stack hwhole]
        rfl
      · rcases List.mem_append.mp hd with hd | hd
        · exact ⟨p, Cursor.dispatch_header hd, hwhole, hfits⟩
        · exact hall d hd
    · refine ⟨[], fun stack c hc => ?_, fun d hd => absurd hd List.not_mem_nil⟩
      rw [messageLoop, if_neg (mt (hc.ok_iff stack).mp hwhole)]

end Datagram

namespace Recvmsg

theorem cursor (r : Recvmsg) (hret : 0 ≤ r.ret.toInt) : Cursor.At r.received 0 ⟨0, r.ret⟩ := by
  refine ⟨rfl, ?_, Nat.zero_le _⟩
  rw [Signed.toUInt32_of_nonneg hret, r.counted]
  rfl

/-- Whatever the memory around the received bytes holds: the loop dispatches the same
whole messages and each call records the same attributes, which lie within its message;
and what the call takes from the message is fixed by the received bytes exactly when
these hold the end of the name and of the address it reads. -/
def LinksWithin (iflaMax : Nat) (r : Recvmsg) : Prop :=
  ∃ dispatched,
    (∀ stack, ∃ rounds,
      messageLoop (Memory.ofBlock r.received stack) rounds ⟨0, r.ret⟩ = some dispatched) ∧
    ∀ d ∈ dispatched, ∃ header : Nat, d.header = header ∧ WholeAt r.received header ∧
      ∃ tb, (∀ stack, linkTable iflaMax (Memory.ofBlock r.received stack) header = some tb) ∧
        (∀ type rta, tb type = some rta →
          type ≤ iflaMax ∧ ∃ p : Nat, rta = p ∧ Recorded r.received header type p) ∧
        ((∃ link, ∀ stack, linkAt iflaMax (Memory.ofBlock r.received stack) d = some link) ↔
          Readable r.received d tb)

/-- No bytes of a datagram that comes with its padding lead the two functions out of it. -/
theorem links_within (iflaMax : Nat) (r : Recvmsg) (hret : 0 ≤ r.ret.toInt)
    (hpadded : padded r.received = true) : r.LinksWithin iflaMax := by
  have hzero : r.received.drop 0 = r.received := rfl
  obtain ⟨dispatched, hloop, hwhole⟩ := messageLoop_whole (r.received.length + 1) r.fits
    (Nat.zero_le _) (Nat.lt_succ_self _) (hzero ▸ hpadded)
  refine ⟨dispatched, fun stack => ⟨_, hloop stack _ (r.cursor hret)⟩, fun d hd => ?_⟩
  obtain ⟨header, hheader, h⟩ := hwhole d hd
  exact ⟨header, hheader, h, _, h.linkTable, fun _ _ => tableOf_recorded h,
    linkAt_stable_iff h hheader⟩

/-- A message about `wlan0` with an address of two bytes, the last one of its datagram. -/
def shortAddress : Recvmsg where
  ret := 52
  received := image 4 52 ++ image 2 rtmNewlink ++ List.replicate 10 0 ++ List.replicate 16 0 ++
    layout [⟨iflaIfname, [119, 108, 97, 110, 48, 0], iflaIfname_fits, by decide⟩,
      ⟨iflaAddress, [2, 0], iflaAddress_fits, by decide⟩]
  counted := by decide
  fits := by decide

theorem links_within_short : shortAddress.LinksWithin 60 :=
  links_within 60 shortAddress (by decide) (padded_of_dvd (by decide))

end Recvmsg

end Vwifi
