import Vwifi.Lib.Signed
import Vwifi.Netlink

/-!
# Messages of the route socket

`recv_inet_event` walks over a buffer with `NLMSG_OK` and `NLMSG_NEXT`. What is left
of it is an `int` that each step may push below zero and each test reads without its
sign. The walk stays within the received bytes exactly when it ends there.
-/

namespace Vwifi

set_option autoImplicit false

open LittleEndian Attributes

/-- `IFLIST_REPLY_BUFFER` -/
def iflistReplyBuffer : Nat := 4096

def rtmNewlink : Nat := 16
def rtmDellink : Nat := 17

/-- `NLMSG_ALIGN`, which wraps around for the three largest lengths. -/
def nlmsgAlign (len : UInt32) : UInt32 := (len + 3) / 4 * 4

theorem nlmsgAlign_toNat {len : UInt32} (h : len.toNat < 2 ^ 31) :
    (nlmsgAlign len).toNat = align len.toNat := by
  have hthree : (3 : UInt32).toNat = 3 := rfl
  have hfour : (4 : UInt32).toNat = 4 := rfl
  rw [nlmsgAlign, UInt32.toNat_mul, UInt32.toNat_div, UInt32.toNat_add, hthree, hfour, align]
  omega

namespace Memory

/-- `nlmsg_len` of the header at an address. -/
def nlmsgLenAt (mem : Memory) (header : Int) : UInt32 := UInt32.ofNat (value (mem.read header 4))

/-- `nlmsg_type` of the header at an address. -/
def nlmsgTypeAt (mem : Memory) (header : Int) : Nat := value (mem.read (header + 4) 2)

/-- What lies behind a block is not changed by it. -/
theorem ofBlock_read_behind {block : List UInt8} (around : Memory) {start : Int} (size : Nat)
    (h : block.length ≤ start) :
    (ofBlock block around).read start size = around.read start size := by
  apply List.map_congr_left
  intro i _
  exact if_neg (by omega)

end Memory

/-- The variables `nlmsgheader` and `len`. -/
structure Cursor where
  nlmsgheader : Int
  len : Int32

/-- A call of `new_net_interface` or `del_net_interface`, with the header it is for. -/
inductive Dispatch where
  | newNetInterface (header : Int)
  | delNetInterface (header : Int)
deriving DecidableEq

def Dispatch.header : Dispatch → Int
  | newNetInterface header => header
  | delNetInterface header => header

namespace Cursor

/-- `NLMSG_OK(nlmsgheader, (unsigned int)len)` -/
def ok (mem : Memory) (c : Cursor) : Bool :=
  (sizeofNlmsghdr ≤ c.len.toUInt32.toNat &&
    sizeofNlmsghdr ≤ (mem.nlmsgLenAt c.nlmsgheader).toNat) &&
      (mem.nlmsgLenAt c.nlmsgheader).toNat ≤ c.len.toUInt32.toNat

/-- `NLMSG_NEXT(nlmsgheader, len)` -/
def next (mem : Memory) (c : Cursor) : Cursor where
  nlmsgheader := c.nlmsgheader + (nlmsgAlign (mem.nlmsgLenAt c.nlmsgheader)).toNat
  len := c.len - (nlmsgAlign (mem.nlmsgLenAt c.nlmsgheader)).toInt32

/-- The switch on `nlmsg_type`. -/
def dispatch (mem : Memory) (c : Cursor) : List Dispatch :=
  if mem.nlmsgTypeAt c.nlmsgheader = rtmNewlink then [.newNetInterface c.nlmsgheader]
  else if mem.nlmsgTypeAt c.nlmsgheader = rtmDellink then [.delNetInterface c.nlmsgheader]
  else []

end Cursor

/-- The loop of `recv_inet_event`: none when it is still running after so many rounds. -/
def messageLoop (mem : Memory) : Nat → Cursor → Option (List Dispatch)
  | 0, _ => none
  | rounds + 1, c =>
    if c.ok mem then (messageLoop mem rounds (c.next mem)).map (c.dispatch mem ++ ·) else some []

/-- The result of `recvmsg` and the bytes it has stored: none after an error. -/
structure Recvmsg where
  ret : Int32
  received : List UInt8
  counted : received.length = ret.toInt.toNat
  fits : received.length ≤ iflistReplyBuffer

/-- The loop ends, what it dispatches lies within the received bytes, and after an
error it dispatches nothing. -/
def Recvmsg.Contained (r : Recvmsg) (mem : Memory) : Prop :=
  ∃ rounds dispatched, messageLoop mem rounds ⟨0, r.ret⟩ = some dispatched ∧
    (∀ d ∈ dispatched, 0 ≤ d.header ∧ d.header + sizeofNlmsghdr ≤ r.received.length ∧
      d.header + (mem.nlmsgLenAt d.header).toNat ≤ r.received.length) ∧
    (r.ret.toInt < 0 → dispatched = [])

/-! ## The walk within the received bytes -/

/-- The bytes begin with a whole message. -/
def WholeFirst (bytes : List UInt8) : Prop :=
  sizeofNlmsghdr ≤ bytes.length ∧ sizeofNlmsghdr ≤ value (bytes.take 4) ∧
    value (bytes.take 4) ≤ bytes.length

instance (bytes : List UInt8) : Decidable (WholeFirst bytes) := inferInstanceAs (Decidable (_ ∧ _))

/-- Message by message, each whole message comes with its padding. -/
def padded (bytes : List UInt8) : Bool :=
  if _hwhole : WholeFirst bytes then
    align (value (bytes.take 4)) ≤ bytes.length &&
      padded (bytes.drop (align (value (bytes.take 4))))
  else true
termination_by bytes.length
decreasing_by
  have hle := le_align (value (bytes.take 4))
  have hsize := _hwhole.2.1
  have hlength := _hwhole.1
  rw [sizeofNlmsghdr] at hsize hlength
  rw [List.length_drop]
  omega

/-- Bytes that come in fours have all padding they need. -/
theorem padded_of_dvd {bytes : List UInt8} (h : 4 ∣ bytes.length) : padded bytes = true := by
  fun_induction padded bytes with
  | case1 bytes hwhole ih =>
    have hlast := hwhole.2.2
    have hle : align (value (bytes.take 4)) ≤ bytes.length := by
      rw [align]
      omega
    have hrest : 4 ∣ (bytes.drop (align (value (bytes.take 4)))).length := by
      rw [List.length_drop, align]
      omega
    rw [ih hrest, Bool.and_true, decide_eq_true_eq]
    exact hle
  | case2 => rfl

section Walk

variable {block : List UInt8} {stack : Memory} {p : Nat} {c : Cursor}

theorem nlmsgLenAt_block (h : p + 4 ≤ block.length) :
    ((Memory.ofBlock block stack).nlmsgLenAt p).toNat = value ((block.drop p).take 4) := by
  have hlt := value_lt ((block.drop p).take 4)
  have hlength : ((block.drop p).take 4).length = 4 := by
    rw [List.length_take, List.length_drop]
    omega
  rw [hlength] at hlt
  rw [Memory.nlmsgLenAt, Memory.ofBlock_read stack h, UInt32.toNat_ofNat']
  exact Nat.mod_eq_of_lt hlt

/-- The cursor stands at the place `p` of the received bytes. -/
structure Cursor.At (block : List UInt8) (p : Nat) (c : Cursor) : Prop where
  header : c.nlmsgheader = p
  left : c.len.toUInt32.toNat = block.length - p
  within : p ≤ block.length

namespace Cursor.At

theorem ok_iff (h : c.At block p) (stack : Memory) :
    c.ok (Memory.ofBlock block stack) = true ↔ WholeFirst (block.drop p) := by
  have hwithin := h.within
  rw [Cursor.ok, h.header, h.left, WholeFirst, List.length_drop, Bool.and_eq_true,
    Bool.and_eq_true, decide_eq_true_eq, decide_eq_true_eq, decide_eq_true_eq, and_assoc]
  apply and_congr_right
  intro hsize
  rw [sizeofNlmsghdr] at hsize
  rw [nlmsgLenAt_block (by omega)]

/-- A step over a whole message: what is left becomes less than nothing where its
padding is missing. -/
theorem next_left (h : c.At block p) (stack : Memory) (hwhole : WholeFirst (block.drop p))
    (hfits : block.length ≤ iflistReplyBuffer) :
    (c.next (Memory.ofBlock block stack)).nlmsgheader =
        p + align (value ((block.drop p).take 4)) ∧
      (c.next (Memory.ofBlock block stack)).len.toUInt32 =
        c.len.toUInt32 - UInt32.ofNat (align (value ((block.drop p).take 4))) := by
  obtain ⟨hsize, hheader, hlast⟩ := hwhole
  rw [iflistReplyBuffer] at hfits
  rw [sizeofNlmsghdr, List.length_drop] at hsize
  rw [List.length_drop] at hlast
  have hvalue := @nlmsgLenAt_block block stack p (by omega)
  have halign := nlmsgAlign_toNat (lt_of_eq_of_lt hvalue (by omega))
  rw [hvalue] at halign
  have hback := UInt32.ofNat_toNat (x := nlmsgAlign ((Memory.ofBlock block stack).nlmsgLenAt p))
  rw [halign] at hback
  rw [next, h.header]
  refine ⟨by rw [halign], ?_⟩
  rw [Int32.toUInt32_sub, UInt32.toUInt32_toInt32, hback]

theorem next (h : c.At block p) (stack : Memory) (hwhole : WholeFirst (block.drop p))
    (hfits : block.length ≤ iflistReplyBuffer)
    (hpadded : align (value ((block.drop p).take 4)) ≤ (block.drop p).length) :
    (c.next (Memory.ofBlock block stack)).At block (p + align (value ((block.drop p).take 4))) := by
  obtain ⟨hheader, hleft⟩ := h.next_left stack hwhole hfits
  have hwithin := h.within
  rw [List.length_drop] at hpadded
  rw [iflistReplyBuffer] at hfits
  refine ⟨by rw [hheader]; rfl, ?_, by omega⟩
  have hof : (UInt32.ofNat (align (value ((block.drop p).take 4)))).toNat =
      align (value ((block.drop p).take 4)) := by
    rw [UInt32.toNat_ofNat']
    exact Nat.mod_eq_of_lt (by omega)
  rw [hleft, UInt32.toNat_sub, h.left, hof]
  omega

end Cursor.At

theorem Cursor.dispatch_header {mem : Memory} {d : Dispatch} (h : d ∈ c.dispatch mem) :
    d.header = c.nlmsgheader := by
  unfold Cursor.dispatch at h
  split at h
  · rw [List.mem_singleton.mp h]
    rfl
  · split at h
    · rw [List.mem_singleton.mp h]
      rfl
    · cases h

theorem messageLoop_round {mem : Memory} {rounds : Nat} {dispatched : List Dispatch}
    (hok : c.ok mem = true) (h : messageLoop mem rounds c = some dispatched) :
    ∃ rounds' rest, messageLoop mem rounds' (c.next mem) = some rest ∧
      c.dispatch mem ++ rest = dispatched := by
  cases rounds with
  | zero => cases h
  | succ rounds =>
    rw [messageLoop, if_pos hok] at h
    obtain ⟨rest, hrest, happend⟩ := Option.map_eq_some_iff.mp h
    exact ⟨rounds, rest, hrest, happend⟩

theorem messageLoop_padded (stack : Memory) (rounds : Nat)
    (hfits : block.length ≤ iflistReplyBuffer) (h : c.At block p)
    (hrounds : block.length - p < rounds) (hpadded : padded (block.drop p) = true) :
    ∃ dispatched, messageLoop (Memory.ofBlock block stack) rounds c = some dispatched ∧
      ∀ d ∈ dispatched, 0 ≤ d.header ∧ d.header + sizeofNlmsghdr ≤ block.length ∧
        d.header + ((Memory.ofBlock block stack).nlmsgLenAt d.header).toNat ≤ block.length := by
  induction rounds generalizing p c with
  | zero => omega
  | succ rounds ih =>
    have hok := h.ok_iff stack
    by_cases hwhole : WholeFirst (block.drop p)
    · rw [padded, dif_pos hwhole, Bool.and_eq_true, decide_eq_true_eq, List.drop_drop] at hpadded
      obtain ⟨hpadding, hrest⟩ := hpadded
      have hle := le_align (value ((block.drop p).take 4))
      have ⟨hsize, hheader, hlast⟩ := hwhole
      rw [List.length_drop] at hsize hlast
      rw [sizeofNlmsghdr] at hsize hheader
      obtain ⟨dispatched, hloop, hinside⟩ :=
          ih (h.next stack hwhole hfits hpadding) (by omega) hrest
      refine ⟨c.dispatch (Memory.ofBlock block stack) ++ dispatched, ?_, ?_⟩
      · rw [messageLoop, if_pos (hok.mpr hwhole), hloop]
        rfl
      · intro d hd
        rcases List.mem_append.mp hd with hd | hd
        · rw [Cursor.dispatch_header hd, h.header, nlmsgLenAt_block (by omega), sizeofNlmsghdr]
          omega
        · exact hinside d hd
    · refine ⟨[], ?_, fun d hd => absurd hd List.not_mem_nil⟩
      rw [messageLoop, if_neg (mt hok.mp hwhole)]

/-! ## The walk behind the received bytes -/

/-- Memory with the header of an RTM_NEWLINK message at `q`. -/
def newlinkAt (q : Int) : Memory := fun a => if a = q ∨ a = q + 4 then 16 else 0

theorem newlinkAt_header (q : Int) :
    (newlinkAt q).nlmsgLenAt q = 16 ∧ (newlinkAt q).nlmsgTypeAt q = rtmNewlink := by
  have hread : ∀ start size, (newlinkAt q).read (q + start) size =
      (newlinkAt 0).read start size := by
    intro start size
    apply List.map_congr_left
    intro i _
    simp only [newlinkAt]
    congr 1
    apply propext
    omega
  have hlen := hread 0 4
  rw [add_zero] at hlen
  rw [Memory.nlmsgLenAt, Memory.nlmsgTypeAt, hlen, hread 4 2]
  decide

/-- Whatever the loop finds behind the received bytes it takes for a message, as long
as it believes that there is something left. -/
theorem messageLoop_behind {q : Int} {rounds : Nat} {dispatched : List Dispatch}
    (hbehind : block.length ≤ q) (hheader : c.nlmsgheader = q)
    (hleft : sizeofNlmsghdr ≤ c.len.toUInt32.toNat)
    (h : messageLoop (Memory.ofBlock block (newlinkAt q)) rounds c = some dispatched) :
    .newNetInterface q ∈ dispatched := by
  obtain ⟨hlen, htype⟩ := newlinkAt_header q
  have hlen' : (Memory.ofBlock block (newlinkAt q)).nlmsgLenAt q = 16 := by
    rw [← hlen, Memory.nlmsgLenAt, Memory.ofBlock_read_behind _ 4 hbehind]
    rfl
  have htype' : (Memory.ofBlock block (newlinkAt q)).nlmsgTypeAt q = rtmNewlink := by
    rw [← htype, Memory.nlmsgTypeAt, Memory.ofBlock_read_behind _ 2 (by omega)]
    rfl
  have hsixteen : (16 : UInt32).toNat = sizeofNlmsghdr := rfl
  have hok : c.ok (Memory.ofBlock block (newlinkAt q)) = true := by
    simp [Cursor.ok, hheader, hlen', hsixteen, hleft]
  obtain ⟨_, rest, _, rfl⟩ := messageLoop_round hok h
  apply List.mem_append_left
  rw [Cursor.dispatch, hheader, if_pos htype']
  exact List.mem_singleton_self _

/-- A message without its padding leads the loop behind the received bytes. -/
theorem messageLoop_unpadded (hfits : block.length ≤ iflistReplyBuffer) (hp : p ≤ block.length)
    (h : padded (block.drop p) = false) :
    ∃ q : Int, block.length ≤ q ∧ ∀ c rounds dispatched, Cursor.At block p c →
      messageLoop (Memory.ofBlock block (newlinkAt q)) rounds c = some dispatched →
        .newNetInterface q ∈ dispatched := by
  induction hleft : block.length - p using Nat.strong_induction_on generalizing p with
  | _ left ih =>
    by_cases hwhole : WholeFirst (block.drop p)
    · have hle := le_align (value ((block.drop p).take 4))
      have ⟨hsize, hheader, hlast⟩ := hwhole
      rw [sizeofNlmsghdr] at hsize hheader
      rw [List.length_drop] at hsize hlast
      rw [padded, dif_pos hwhole, List.drop_drop] at h
      by_cases hpadding : align (value ((block.drop p).take 4)) ≤ (block.drop p).length
      · rw [decide_eq_true hpadding, Bool.true_and] at h
        have hpadding' := hpadding
        rw [List.length_drop] at hpadding'
        obtain ⟨q, hbehind, hrest⟩ := ih _ (by omega) (by omega) h rfl
        refine ⟨q, hbehind, fun c rounds dispatched hc hloop => ?_⟩
        obtain ⟨_, rest, hloop', rfl⟩ := messageLoop_round ((hc.ok_iff _).mpr hwhole) hloop
        apply List.mem_append_right
        exact hrest _ _ _ (hc.next _ hwhole hfits hpadding) hloop'
      · rw [List.length_drop] at hpadding
        refine ⟨(p + align (value ((block.drop p).take 4)) : Nat), by omega, ?_⟩
        intro c rounds dispatched hc hloop
        obtain ⟨_, rest, hloop', rfl⟩ := messageLoop_round ((hc.ok_iff _).mpr hwhole) hloop
        obtain ⟨hnext, hwrapped⟩ := hc.next_left
          (newlinkAt (p + align (value ((block.drop p).take 4)) : Nat)) hwhole hfits
        apply List.mem_append_right
        apply messageLoop_behind (by omega) hnext _ hloop'
        -- what is left has wrapped around
        have hpadding' : align (value ((block.drop p).take 4)) <
            value ((block.drop p).take 4) + 4 := by
          rw [align]
          omega
        rw [iflistReplyBuffer] at hfits
        rw [hwrapped, UInt32.toNat_sub, hc.left, UInt32.toNat_ofNat', sizeofNlmsghdr]
        omega
    · rw [padded, dif_neg hwhole] at h
      cases h

end Walk

namespace Recvmsg

/-- Whatever the memory holds that `recvmsg` has not written: the loop ends and stays
within the received bytes exactly when `recvmsg` did not fail and every message it
has stored comes with its padding. -/
theorem contained_iff (r : Recvmsg) :
    (∀ stack, r.Contained (Memory.ofBlock r.received stack)) ↔
      0 ≤ r.ret.toInt ∧ padded r.received = true := by
  have hcounted := r.counted
  have hdrop : r.received.drop 0 = r.received := rfl
  constructor
  · intro h
    constructor
    · by_contra hneg
      obtain ⟨rounds, dispatched, hloop, _, hfailed⟩ := h (newlinkAt 0)
      have hlarge := Signed.toUInt32_of_neg (Int.not_le.mp hneg)
      have hmem := @messageLoop_behind r.received ⟨0, r.ret⟩ 0 _ _ (by omega) rfl
        (Nat.le_trans (by decide) hlarge) hloop
      rw [hfailed (Int.not_le.mp hneg)] at hmem
      cases hmem
    · by_contra hunpadded
      have hwithin : 0 ≤ r.ret.toInt := by
        by_contra hneg
        have hnil : r.received = [] := List.length_eq_zero_iff.mp (by omega)
        rw [hnil] at hunpadded
        exact hunpadded (padded_of_dvd (Nat.dvd_zero 4))
      obtain ⟨q, hbehind, hdispatches⟩ := messageLoop_unpadded r.fits (Nat.zero_le _)
        (Bool.not_eq_true _ ▸ hunpadded)
      obtain ⟨rounds, dispatched, hloop, hinside, _⟩ := h (newlinkAt q)
      have hleft : (Int32.toUInt32 r.ret).toNat = r.received.length - 0 := by
        rw [Signed.toUInt32_of_nonneg hwithin, hcounted]
        rfl
      have hmem := hdispatches ⟨0, r.ret⟩ rounds dispatched ⟨rfl, hleft, Nat.zero_le _⟩ hloop
      have hend := (hinside _ hmem).2.1
      simp only [Dispatch.header, sizeofNlmsghdr] at hend
      omega
  · rintro ⟨hpositive, hpadded⟩ stack
    have hleft : (Int32.toUInt32 r.ret).toNat = r.received.length - 0 := by
      rw [Signed.toUInt32_of_nonneg hpositive, hcounted]
      rfl
    obtain ⟨dispatched, hloop, hinside⟩ := messageLoop_padded stack (r.received.length + 1) r.fits
      (⟨rfl, hleft, Nat.zero_le _⟩ : Cursor.At r.received 0 ⟨0, r.ret⟩) (Nat.lt_succ_self _) hpadded
    exact ⟨_, dispatched, hloop, hinside, fun hneg => absurd hneg (Int.not_lt.mpr hpositive)⟩

/-- `recvmsg` fails, and the buffer still holds the header of an earlier message. -/
theorem contained_fails :
    ¬ Recvmsg.Contained ⟨-1, [], by decide, by decide⟩ (Memory.ofBlock [] (newlinkAt 0)) := by
  rintro ⟨rounds, dispatched, hloop, _, hfailed⟩
  have hmem := @messageLoop_behind [] ⟨0, -1⟩ 0 _ _ (by decide) rfl (by decide) hloop
  rw [hfailed (by decide)] at hmem
  cases hmem

end Recvmsg

end Vwifi
