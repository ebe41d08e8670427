import Mathlib.Data.Int.Order.Basic
import Vwifi.Devices
import Vwifi.Lib.Attributes

/-!
# Netlink messages

The memory around a message, with the message at address 0, and the functions of
libnl by which the client finds its way in it. What `genlmsg_parse` records is
a parameter: only what its documentation promises is known of it.
-/

namespace Vwifi

set_option autoImplicit false

open LittleEndian

/-- `GENL_HDRLEN` -/
def genlHdrlen : Nat := 4

/-- `NLA_HDRLEN` -/
def nlaHdrlen : Nat := 4

inductive HwsimCmd where
  | register | frame | txInfoFrame
deriving DecidableEq

def HwsimCmd.code : HwsimCmd → UInt8
  | register => 1
  | frame => 2
  | txInfoFrame => 3

/-- The attributes the client looks at. -/
inductive HwsimAttr where
  | addrTransmitter | frame | flags | txInfo | cookie | freq
deriving DecidableEq

def HwsimAttr.code : HwsimAttr → Nat
  | addrTransmitter => 2
  | frame => 3
  | flags => 4
  | txInfo => 7
  | cookie => 8
  | freq => 19

/-- `HWSIM_ATTR_MAX` -/
def hwsimAttrMax : Nat := 29

/-- Addresses are counted from the header of the message. -/
abbrev Memory := Int → UInt8

namespace Memory

def read (mem : Memory) (address : Int) (size : Nat) : List UInt8 :=
  (List.range size).map fun i : Nat => mem (address + i)

def write (mem : Memory) (address : Int) (bytes : List UInt8) : Memory := fun a =>
  if address ≤ a ∧ a < address + bytes.length then bytes.getD (a - address).toNat 0 else mem a

/-- A block that begins at address 0. -/
def ofBlock (block : List UInt8) (around : Memory) : Memory := around.write 0 block

@[simp] theorem read_length (mem : Memory) (address : Int) (size : Nat) :
    (mem.read address size).length = size := by
  rw [read, List.length_map, List.length_range]

theorem ofBlock_read {block : List UInt8} {offset size : Nat} (around : Memory)
    (h : offset + size ≤ block.length) :
    (ofBlock block around).read offset size = (block.drop offset).take size := by
  apply List.ext_getElem
  · rw [read_length, List.length_take, List.length_drop]
    omega
  · intro i hi hi'
    rw [read_length] at hi
    have hlt : offset + i < block.length := by omega
    have hin : (0 : Int) ≤ ((offset : Int) + i) ∧ ((offset : Int) + i) < 0 + block.length := by
      omega
    have hindex : ((offset : Int) + i - 0).toNat = offset + i := by omega
    simp only [read, ofBlock, write, List.getElem_map, List.getElem_range, if_pos hin, hindex,
      List.getElem_take, List.getElem_drop]
    exact (List.getElem_eq_getD 0).symm

theorem ofBlock_read_take {block : List UInt8} {n offset size : Nat} (around : Memory)
    (hn : n ≤ block.length) (h : offset + size ≤ n) :
    (ofBlock block around).read offset size = ((block.take n).drop offset).take size := by
  rw [ofBlock_read around (by omega), List.drop_take, List.take_take]
  congr 1
  omega

theorem read_take (mem : Memory) (address : Int) {n size : Nat} (h : n ≤ size) :
    (mem.read address size).take n = mem.read address n := by
  rw [read, read, ← List.map_take, List.take_range, Nat.min_eq_left h]

theorem write_read (mem : Memory) {address : Int} (bytes : List UInt8) {start : Int} {size : Nat}
    (h : start + size ≤ address) :
    (mem.write address bytes).read start size = mem.read start size := by
  apply List.map_congr_left
  intro i hi
  have hlt := List.mem_range.mp hi
  exact if_neg (by omega)

def nlmsgLen (mem : Memory) : Nat := value (mem.read 0 4)

def nlmsgType (mem : Memory) : Nat := value (mem.read 4 2)

/-- `gnlh->cmd` -/
def cmd (mem : Memory) : UInt8 := mem sizeofNlmsghdr

/-- `nla_len` -/
def nlaLen (mem : Memory) (attr : Int) : Int := (value (mem.read attr 2) : Int) - nlaHdrlen

/-- `nla_data` -/
def nlaData (attr : Int) : Int := attr + nlaHdrlen

def nlaGetU32 (mem : Memory) (attr : Int) : UInt32 :=
  UInt32.ofNat (value (mem.read (nlaData attr) 4))

/-- Of an attribute that is absent or too short the value is 0. -/
def nlaGetU64 (mem : Memory) (attr : Option Int) : UInt64 :=
  match attr with
  | none => 0
  | some attr => if 8 ≤ mem.nlaLen attr then UInt64.ofNat (value (mem.read (nlaData attr) 8)) else 0

def etherAddr (mem : Memory) (address : Int) : EtherAddr :=
  ⟨mem.read address ethAlen, mem.read_length address ethAlen⟩

end Memory

/-- `struct nlattr *attrs[HWSIM_ATTR_MAX + 1]`: the address of an attribute, none
for a null pointer. -/
abbrev AttrTable := Nat → Option Int

/-- `genlmsg_parse` of libnl, on the `nlmsg_len` bytes of a message: the positions
of the attributes it records, or no table at all when it returns an error. -/
structure Libnl where
  genlmsgParse : Nat → List UInt8 → Option (Nat → Option Nat)
  /-- It fails on a message too short for a generic netlink header. -/
  short : ∀ maxtype message, value (message.take 4) < sizeofNlmsghdr + genlHdrlen →
    genlmsgParse maxtype message = none
  /-- What it records are attributes that fit into the message. -/
  inside : ∀ maxtype message table type p, genlmsgParse maxtype message = some table →
    table type = some p →
      sizeofNlmsghdr + genlHdrlen ≤ p ∧ nlaHdrlen ≤ value ((message.drop p).take 2) ∧
        p + value ((message.drop p).take 2) ≤ message.length

/-- The walk over the attributes that records those it is asked for. -/
def Libnl.walkAttrs (maxtype : Nat) (message : List UInt8) : Option (Nat → Option Nat) :=
  if value (message.take 4) < sizeofNlmsghdr + genlHdrlen then none
  else
    let start := sizeofNlmsghdr + genlHdrlen
    let entries := Attributes.scan message.length start (message.drop start)
    some fun type =>
      if type ≤ maxtype then (Attributes.lookup entries type).map (·.position) else none

theorem Libnl.walkAttrs_short (maxtype : Nat) (message : List UInt8)
    (h : value (message.take 4) < sizeofNlmsghdr + genlHdrlen) : walkAttrs maxtype message = none :=
  if_pos h

/-- What the walk records is the position of an entry of its scan. -/
theorem Libnl.walkAttrs_entry {maxtype type p : Nat} {message : List UInt8}
    {table : Nat → Option Nat} (h : walkAttrs maxtype message = some table)
    (hp : table type = some p) :
    ∃ e ∈ Attributes.scan message.length (sizeofNlmsghdr + genlHdrlen)
        (message.drop (sizeofNlmsghdr + genlHdrlen)),
      e.type = type ∧ e.position = p ∧ e.length = value ((message.drop p).take 2) := by
  unfold walkAttrs at h
  split at h
  · cases h
  · cases h
    dsimp only at hp
    split at hp
    · obtain ⟨e, hlookup, rfl⟩ := Option.map_eq_some_iff.mp hp
      obtain ⟨hmem, htype⟩ := Attributes.lookup_mem hlookup
      have hvalue := Attributes.scan_length hmem
      have hposition := (Attributes.scan_inside hmem).1
      rw [List.drop_drop, Nat.add_sub_cancel' hposition] at hvalue
      exact ⟨e, hmem, htype, rfl, hvalue.symm⟩
    · cases hp

theorem Libnl.walkAttrs_inside (maxtype : Nat) (message : List UInt8) (table : Nat → Option Nat)
    (type p : Nat) (h : walkAttrs maxtype message = some table) (hp : table type = some p) :
    sizeofNlmsghdr + genlHdrlen ≤ p ∧ nlaHdrlen ≤ value ((message.drop p).take 2) ∧
      p + value ((message.drop p).take 2) ≤ message.length := by
  obtain ⟨e, hmem, rfl, rfl, hvalue⟩ := walkAttrs_entry h hp
  obtain ⟨hposition, hlength, hend⟩ := Attributes.scan_inside hmem
  rw [List.length_drop] at hend
  rw [Attributes.headerSize] at hlength
  rw [← hvalue, nlaHdrlen]
  exact ⟨hposition, hlength, by omega⟩

/-- A `genlmsg_parse` that does what is documented. -/
def Libnl.walk : Libnl where
  genlmsgParse := walkAttrs
  short := walkAttrs_short
  inside := walkAttrs_inside

/-- What else is known of `genlmsg_parse`: the attributes it records lie one behind the
other, and their payload does not matter to it. -/
structure Libnl.Sequential (libnl : Libnl) : Prop where
  apart : ∀ maxtype message table type type' p p',
    libnl.genlmsgParse maxtype message = some table → table type = some p →
      table type' = some p' → type ≠ type' →
        p + value ((message.drop p).take 2) ≤ p' ∨ p' + value ((message.drop p').take 2) ≤ p
  payload : ∀ maxtype message message' table type p,
    libnl.genlmsgParse maxtype message = some table → table type = some p →
      Patch.SameOutside (p + nlaHdrlen) (p + value ((message.drop p).take 2)) message message' →
        libnl.genlmsgParse maxtype message' = some table

theorem Libnl.walk_sequential : Libnl.walk.Sequential where
  apart := by
    intro maxtype message table type type' p p' h hp hp' hne
    obtain ⟨e, he, rfl, rfl, hlength⟩ := walkAttrs_entry h hp
    obtain ⟨e', he', rfl, rfl, hlength'⟩ := walkAttrs_entry h hp'
    rw [← hlength, ← hlength']
    refine Attributes.scan_apart he he' ?_
    rintro rfl
    exact hne rfl
  payload := by
    intro maxtype message message' table type p h hp hsame
    obtain ⟨e, he, rfl, rfl, hlength⟩ := walkAttrs_entry h hp
    have hposition := (Attributes.scan_inside he).1
    have hfour : message'.take 4 = message.take 4 :=
      hsame.window (k := 0) (.inl (by rw [nlaHdrlen]; omega))
    rw [← hlength] at hsame
    have hdrop : Patch.SameOutside
        (e.position - (sizeofNlmsghdr + genlHdrlen) + Attributes.headerSize)
        (e.position - (sizeofNlmsghdr + genlHdrlen) + e.length)
        (message.drop (sizeofNlmsghdr + genlHdrlen))
        (message'.drop (sizeofNlmsghdr + genlHdrlen)) := by
      refine (hsame.drop (k := sizeofNlmsghdr + genlHdrlen) (by omega)).mono ?_ (by omega)
      rw [Attributes.headerSize, nlaHdrlen]
      omega
    have hscan := Attributes.scan_payload he hdrop
    rw [← h]
    simp only [walk, walkAttrs, hfour, hsame.length, hscan]

/-- What a function finds in memory that nobody has written: its variables `power`
and `attrs`, and what lies around the message. -/
structure Unwritten where
  power : TPower
  attrs : AttrTable
  around : Memory

/-- `genlmsg_parse(nlh, 0, attrs, HWSIM_ATTR_MAX, NULL)`: after an error the table
is what it was. -/
def Libnl.attrs (libnl : Libnl) (mem : Memory) (old : AttrTable) : AttrTable :=
  match libnl.genlmsgParse hwsimAttrMax (mem.read 0 mem.nlmsgLen) with
  | none => old
  | some table => fun type => (table type).map Int.ofNat

/-- The block begins with a netlink message. -/
structure Begins (block message : List UInt8) : Prop where
  stored : block.take message.length = message
  header : value (message.take 4) = message.length
  complete : sizeofNlmsghdr ≤ message.length

namespace Begins

variable {block message : List UInt8} {libnl : Libnl} {maxtype : Nat}
  {table : Nat → Option Nat} {type p : Nat}

theorem of_take {n : Nat} (hn : n ≤ block.length) (hlen : value (block.take 4) = n)
    (hcomplete : sizeofNlmsghdr ≤ n) : Begins block (block.take n) := by
  have hlength : (block.take n).length = n := List.length_take_of_le hn
  rw [sizeofNlmsghdr] at hcomplete
  refine ⟨by rw [hlength], ?_, by rw [hlength]; exact hcomplete⟩
  rw [List.take_take, Nat.min_eq_left (by omega), hlength, hlen]

theorem length_le (h : Begins block message) : message.length ≤ block.length := by
  rw [← h.stored]
  exact List.length_take_le' _ _

theorem read (h : Begins block message) (around : Memory) {offset size : Nat}
    (hin : offset + size ≤ message.length) :
    (Memory.ofBlock block around).read offset size = (message.drop offset).take size := by
  have hread := @Memory.ofBlock_read_take block message.length offset size around h.length_le hin
  rw [hread, h.stored]

theorem nlmsgLen (h : Begins block message) (around : Memory) :
    (Memory.ofBlock block around).nlmsgLen = message.length := by
  have hcomplete := h.complete
  rw [sizeofNlmsghdr] at hcomplete
  rw [← h.header]
  exact congrArg value (@read block message h around 0 4 (by omega))

/-- What the parser is given is the message. -/
theorem read_nlmsgLen (h : Begins block message) (around : Memory) :
    (Memory.ofBlock block around).read 0 (Memory.ofBlock block around).nlmsgLen = message := by
  rw [h.nlmsgLen around]
  exact (@read block message h around 0 message.length (by omega)).trans (List.take_length)

theorem attrs (h : Begins block message) (libnl : Libnl) (around : Memory) (old : AttrTable)
    (hparsed : libnl.genlmsgParse hwsimAttrMax message = some table) :
    libnl.attrs (Memory.ofBlock block around) old = fun type => (table type).map Int.ofNat := by
  rw [Libnl.attrs, h.read_nlmsgLen around, hparsed]

theorem cmd (h : Begins block message) (around : Memory)
    (hlong : sizeofNlmsghdr < message.length) :
    message[sizeofNlmsghdr]? = some (Memory.ofBlock block around).cmd := by
  have hread := @read block message h around sizeofNlmsghdr 1 hlong
  have hone : (Memory.ofBlock block around).read (sizeofNlmsghdr : Nat) 1 =
      [(Memory.ofBlock block around).cmd] := by
    simp [Memory.read, Memory.cmd]
  rw [hone] at hread
  have hget := congrArg (·[0]?) hread
  rw [List.getElem?_take_of_lt Nat.one_pos, List.getElem?_drop] at hget
  exact hget.symm

theorem nlaLen (h : Begins block message) (around : Memory)
    (hparsed : libnl.genlmsgParse maxtype message = some table) (hp : table type = some p) :
    (Memory.ofBlock block around).nlaLen p =
        (value ((message.drop p).take 2) - nlaHdrlen : Nat) ∧
      p + nlaHdrlen + (value ((message.drop p).take 2) - nlaHdrlen) ≤ message.length := by
  obtain ⟨_, hheader, hend⟩ := libnl.inside _ _ _ _ _ hparsed hp
  rw [nlaHdrlen] at hheader ⊢
  rw [Memory.nlaLen, h.read around (by omega), nlaHdrlen]
  exact ⟨by omega, by omega⟩

end Begins

/-- A message as libnl hands it to a callback. -/
structure NlMessage where
  bytes : List UInt8
  header : value (bytes.take 4) = bytes.length
  complete : sizeofNlmsghdr ≤ bytes.length
  bounded : bytes.length < 2 ^ 31

theorem NlMessage.begins (msg : NlMessage) : Begins msg.bytes msg.bytes :=
  ⟨List.take_length, msg.header, msg.complete⟩

end Vwifi
