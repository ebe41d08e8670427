import Vwifi.DeviceSync
import Vwifi.LinkMessages

/-!
# From the datagrams of the route socket to the list of interfaces

A datagram of route messages is written down as the kernel lays it out. What
`recv_inet_event` makes of its bytes is what the messages say, one event for each link
message that has a name, in their order.
-/

namespace Vwifi

set_option autoImplicit false

open LittleEndian Attributes

/-- What `new_net_interface` finds on its stack and what nl80211 answers. -/
structure Around where
  stack : EtherAddr
  reply : Option Report

namespace Interfaces

/-- A call for a message. -/
def dispatched (iflaMax : Nat) (mem : Memory) (around : Int → Around) (s : Interfaces)
    (d : Dispatch) : Option Interfaces :=
  match linkAt iflaMax mem d with
  | none => none
  | some none => some s
  | some (some link) =>
    match d with
    | .newNetInterface header =>
      some (s.newNetInterface link (around header).stack (around header).reply)
    | .delNetInterface _ => some (s.delNetInterface link)

/-- `recv_inet_event`: the buffer stays as it is while the messages are handled. -/
def recvInetEvent (iflaMax : Nat) (mem : Memory) (around : Int → Around) (rounds : Nat)
    (ret : Int32) (s : Interfaces) : Option Interfaces :=
  (messageLoop mem rounds ⟨0, ret⟩).bind (·.foldlM (dispatched iflaMax mem around) s)

end Interfaces

/-! ## Messages and their bytes -/

/-- What `struct nlmsghdr` holds behind the length and the type. -/
structure NlmsgHeader where
  flags : UInt16
  seq : UInt32
  pid : UInt32

def NlmsgHeader.bytes (h : NlmsgHeader) : List UInt8 :=
  image 2 h.flags.toNat ++ image 4 h.seq.toNat ++ image 4 h.pid.toNat

structure Ifinfomsg where
  family : UInt8
  type : UInt16
  index : UInt32
  flags : UInt32
  change : UInt32

def Ifinfomsg.bytes (i : Ifinfomsg) : List UInt8 :=
  [i.family, 0] ++ image 2 i.type.toNat ++ image 4 i.index.toNat ++ image 4 i.flags.toNat ++
    image 4 i.change.toNat

/-- What a link message says, with attributes of any types in any order: the name that
counts ends with a zero byte, the address that counts is long enough. -/
structure LinkBody where
  info : Ifinfomsg
  attributes : List Attribute
  named : ∀ a, last iflaIfname attributes = some a → 0 ∈ a.payload
  addressed : ∀ a, last iflaAddress attributes = some a → ethAlen ≤ a.payload.length

inductive RouteMessage where
  | newLink (header : NlmsgHeader) (body : LinkBody)
  | delLink (header : NlmsgHeader) (body : LinkBody)
  | other (type : UInt16) (header : NlmsgHeader) (body : List UInt8)
      (unrelated : type.toNat ≠ rtmNewlink ∧ type.toNat ≠ rtmDellink)

namespace LinkBody

def bytes (b : LinkBody) : List UInt8 := b.info.bytes ++ layout b.attributes

def address (b : LinkBody) : Option EtherAddr :=
  (last iflaAddress b.attributes).bind fun a =>
    if h : ethAlen ≤ a.payload.length then some ⟨a.payload.take ethAlen, List.length_take_of_le h⟩
    else none

def link (b : LinkBody) : Option Link :=
  (last iflaIfname b.attributes).map fun a =>
    ⟨b.info.index, b.info.type, some (CString.ofBuffer a.payload), b.address⟩

end LinkBody

namespace RouteMessage

def type : RouteMessage → Nat
  | newLink _ _ => rtmNewlink
  | delLink _ _ => rtmDellink
  | other type _ _ _ => type.toNat

def header : RouteMessage → NlmsgHeader
  | newLink header _ => header
  | delLink header _ => header
  | other _ header _ _ => header

def body : RouteMessage → List UInt8
  | newLink _ body => body.bytes
  | delLink _ body => body.bytes
  | other _ _ body _ => body

def length (m : RouteMessage) : Nat := sizeofNlmsghdr + m.body.length

def bytes (m : RouteMessage) : List UInt8 :=
  image 4 m.length ++ image 2 m.type ++ m.header.bytes ++ m.body

def padded (m : RouteMessage) : List UInt8 :=
  m.bytes ++ List.replicate (align m.length - m.length) 0

/-- What the client is told by a message. -/
def events (a : Around) : RouteMessage → List Interfaces.Event
  | newLink _ body => (body.link.map fun link => .newLink link a.stack a.reply).toList
  | delLink _ body => (body.link.map .delLink).toList
  | other _ _ _ _ => []

/-- What the loop dispatches for a message at a place. -/
def dispatches (p : Nat) : RouteMessage → List Dispatch
  | newLink _ _ => [.newNetInterface p]
  | delLink _ _ => [.delNetInterface p]
  | other _ _ _ _ => []

end RouteMessage

def datagram (ms : List RouteMessage) : List UInt8 := ms.flatMap RouteMessage.padded

/-- What the client is told by the messages that stand from a place on. -/
def eventsFrom (around : Int → Around) : Nat → List RouteMessage → List Interfaces.Event
  | _, [] => []
  | p, m :: ms => m.events (around p) ++ eventsFrom around (p + align m.length) ms

def dispatchesFrom : Nat → List RouteMessage → List Dispatch
  | _, [] => []
  | p, m :: ms => m.dispatches p ++ dispatchesFrom (p + align m.length) ms

/-! ## Reading a message back -/

namespace RouteMessage

variable (m : RouteMessage)

theorem header_length (h : NlmsgHeader) : h.bytes.length = 10 := by
  simp only [NlmsgHeader.bytes, List.length_append, image_length]

theorem bytes_length : m.bytes.length = m.length := by
  simp only [bytes, List.length_append, image_length, header_length, length, sizeofNlmsghdr]

theorem padded_length : m.padded.length = align m.length := by
  have hle := le_align m.length
  rw [padded, List.length_append, bytes_length, List.length_replicate]
  omega

theorem type_lt : m.type < 256 ^ 2 := by
  cases m with
  | newLink _ _ => exact (by decide : rtmNewlink < 256 ^ 2)
  | delLink _ _ => exact (by decide : rtmDellink < 256 ^ 2)
  | other type _ _ _ => exact type.toNat_lt

end RouteMessage

theorem datagram_cons (m : RouteMessage) (ms : List RouteMessage) :
    datagram (m :: ms) = m.padded ++ datagram ms := rfl

/-- A message stands at the place `p` of the received bytes. -/
structure StandsAt (block : List UInt8) (m : RouteMessage) (p : Nat) : Prop where
  stands : ∃ behind, block.drop p = m.bytes ++ behind
  fits : block.length ≤ iflistReplyBuffer

namespace StandsAt

variable {block : List UInt8} {m : RouteMessage} {p : Nat} (h : StandsAt block m p)
include h

theorem within : p + m.length ≤ block.length := by
  obtain ⟨behind, hbytes⟩ := h.stands
  have hlength := congrArg List.length hbytes
  have hpos : 0 < m.length :=
    Nat.lt_of_lt_of_le (by decide : 0 < sizeofNlmsghdr) (Nat.le_add_right _ _)
  rw [List.length_drop, List.length_append, m.bytes_length] at hlength
  omega

/-- What is read from a place of the message on. -/
theorem drop_add (before after : List UInt8) (hsplit : m.bytes = before ++ after) :
    ∃ behind, block.drop (p + before.length) = after ++ behind := by
  obtain ⟨behind, hbytes⟩ := h.stands
  refine ⟨behind, ?_⟩
  rw [← List.drop_drop, hbytes, hsplit, List.append_assoc, List.drop_left]

theorem nlmsgLen : value ((block.drop p).take 4) = m.length := by
  have hwithin := h.within
  have hfits := h.fits
  have hlt : m.length < 256 ^ 4 := by
    rw [iflistReplyBuffer] at hfits
    omega
  obtain ⟨behind, hbytes⟩ := h.stands
  rw [hbytes, RouteMessage.bytes, List.append_assoc, List.append_assoc, List.append_assoc,
    List.take_left' (image_length 4 _), value_image_of_lt hlt]

theorem wholeAt : WholeAt block p := by
  have hwithin := h.within
  have hheader : sizeofNlmsghdr ≤ m.length := Nat.le_add_right _ _
  refine ⟨⟨?_, ?_, ?_⟩, h.fits⟩
  · rw [List.length_drop]
    omega
  · rw [h.nlmsgLen]
    exact hheader
  · rw [h.nlmsgLen, List.length_drop]
    omega

theorem dispatch (stack : Memory) (c : Cursor) (hc : c.nlmsgheader = p) :
    c.dispatch (Memory.ofBlock block stack) = m.dispatches p := by
  have hwithin := h.within
  have hheader : sizeofNlmsghdr ≤ m.length := Nat.le_add_right _ _
  rw [sizeofNlmsghdr] at hheader
  obtain ⟨behind, hdrop⟩ := h.drop_add (image 4 m.length)
    (image 2 m.type ++ m.header.bytes ++ m.body) (by
      rw [RouteMessage.bytes, List.append_assoc, List.append_assoc, List.append_assoc])
  have hread := @Memory.ofBlock_read block (p + 4) 2 stack (by omega)
  rw [image_length, List.append_assoc, List.append_assoc] at hdrop
  have htype : (Memory.ofBlock block stack).nlmsgTypeAt p = m.type := by
    rw [hdrop, List.take_left' (image_length 2 _)] at hread
    have hvalue := congrArg value hread
    rw [value_image_of_lt m.type_lt] at hvalue
    exact hvalue
  rw [Cursor.dispatch, hc, htype]
  cases m with
  | newLink _ _ => rfl
  | delLink _ _ => rfl
  | other type _ _ hother =>
    exact (if_neg hother.1).trans (if_neg hother.2)

end StandsAt

theorem length_le_layout (attributes : List Attribute) :
    attributes.length ≤ (layout attributes).length := by
  induction attributes with
  | nil => exact Nat.le_refl 0
  | cons a attributes ih =>
    have hcons : layout (a :: attributes) = a.padded ++ layout attributes := rfl
    have hle := le_align a.length
    rw [Attribute.length, headerSize] at hle
    rw [hcons, List.length_append, a.padded_length, List.length_cons, Attribute.length, headerSize]
    omega

theorem headers_length (m : RouteMessage) (b : LinkBody) : (image 4 m.length ++ image 2 m.type ++
    m.header.bytes ++ b.info.bytes).length = linkHeaders := by
  simp only [List.length_append, image_length, RouteMessage.header_length, Ifinfomsg.bytes,
    List.length_cons, List.length_nil, linkHeaders, sizeofNlmsghdr, sizeofIfinfomsg]

theorem message_length {m : RouteMessage} {b : LinkBody} (hbody : m.body = b.bytes) :
    m.length = linkHeaders + (layout b.attributes).length := by
  have hlength := congrArg List.length hbody
  simp only [LinkBody.bytes, Ifinfomsg.bytes, List.length_append, List.length_cons,
    List.length_nil, image_length] at hlength
  rw [RouteMessage.length, hlength, linkHeaders, sizeofIfinfomsg]
  omega

theorem LinkBody.address_isSome (b : LinkBody) :
    b.address.isSome = (last iflaAddress b.attributes).isSome := by
  rw [LinkBody.address]
  cases hlast : last iflaAddress b.attributes with
  | none => rfl
  | some a =>
    rw [Option.bind_some, dif_pos (b.addressed a hlast)]
    rfl

section Link

variable {iflaMax : Nat} {block : List UInt8} {m : RouteMessage} {b : LinkBody} {p : Nat}
  (h : StandsAt block m p) (hbody : m.body = b.bytes)
include h hbody

theorem attributes_drop :
    ∃ behind, block.drop (p + linkHeaders) = layout b.attributes ++ behind := by
  rw [← headers_length m b]
  apply h.drop_add
  rw [RouteMessage.bytes, hbody, LinkBody.bytes, ← List.append_assoc]

theorem attributes_window :
    window block (stopOf block p) (p + linkHeaders) = layout b.attributes := by
  obtain ⟨behind, hdrop⟩ := attributes_drop h hbody
  have hlength := message_length hbody
  have hsize : p + m.length - (p + linkHeaders) = (layout b.attributes).length := by omega
  rw [window, stopOf, h.nlmsgLen, List.drop_take, hdrop, hsize, List.take_left]

/-- Of each type the last attribute is recorded. -/
theorem tableOf_found (type : Nat) (hmax : type ≤ iflaMax) :
    match last type b.attributes with
    | none => tableOf iflaMax block p type = none
    | some a => ∃ rta : Nat, tableOf iflaMax block p type = some (rta : Int) ∧
        ∃ behind, block.drop (rta + sizeofRtattr) = a.payload ++ behind := by
  have hcount := length_le_layout b.attributes
  have hlength := message_length hbody
  have hscan : scanRaw (value ((block.drop p).take 4) + 1) (p + linkHeaders)
      (window block (stopOf block p) (p + linkHeaders)) =
        entriesOf (p + linkHeaders) b.attributes := by
    rw [attributes_window h hbody, h.nlmsgLen]
    apply scanRaw_layout
    omega
  have htable : tableOf iflaMax block p type =
      (lookup (entriesOf (p + linkHeaders) b.attributes) type).map fun e => (e.position : Int) := by
    rw [tableOf, kept, if_pos hmax, hscan, Option.or_none]
  have hfound := lookup_entriesOf (p + linkHeaders) b.attributes type
  rw [htable]
  cases hlast : last type b.attributes with
  | none =>
    rw [hlast] at hfound
    rw [hfound]
    rfl
  | some a =>
    rw [hlast] at hfound
    obtain ⟨e, hlookup, hposition, _, behind, hbytes⟩ := hfound
    obtain ⟨tail, hdrop⟩ := attributes_drop h hbody
    refine ⟨e.position, by rw [hlookup]; rfl, behind ++ tail, ?_⟩
    have hinside : e.position - (p + linkHeaders) ≤ (layout b.attributes).length := by
      by_contra hout
      rw [List.drop_eq_nil_of_le (by omega)] at hbytes
      have hlength := congrArg List.length hbytes
      rw [List.length_append, a.bytes_length, Attribute.length, headerSize,
        List.length_nil] at hlength
      omega
    have hsplit : e.position = p + linkHeaders + (e.position - (p + linkHeaders)) := by omega
    have hheader : (image 2 a.length ++ image 2 a.type).length = sizeofRtattr := by
      rw [List.length_append, image_length, image_length, sizeofRtattr]
    rw [← List.drop_drop, hsplit, ← List.drop_drop, hdrop, List.drop_append_of_le_length hinside,
      hbytes, Attribute.bytes, List.append_assoc, List.append_assoc, List.drop_left' hheader]

theorem link_readable (hmax : iflaIfname ≤ iflaMax) (d : Dispatch) :
    Readable block d (tableOf iflaMax block p) := by
  have haddressMax : iflaAddress ≤ iflaMax := Nat.le_trans (by decide) hmax
  intro _ name hname
  have hfound := tableOf_found h hbody iflaIfname hmax
  cases hlast : last iflaIfname b.attributes with
  | none =>
    rw [hlast, hname] at hfound
    cases hfound
  | some a =>
    rw [hlast, hname] at hfound
    obtain ⟨rta, heq, behind, hdrop⟩ := hfound
    obtain rfl : name = rta := Int.ofNat.inj (Option.some.inj heq)
    constructor
    · rw [hdrop]
      exact List.mem_append_left _ (b.named a hlast)
    · intro address haddress
      have hfound := tableOf_found h hbody iflaAddress haddressMax
      cases hlast : last iflaAddress b.attributes with
      | none =>
        rw [hlast, haddress] at hfound
        cases hfound
      | some a =>
        rw [hlast, haddress] at hfound
        obtain ⟨rta, heq, behind, hdrop⟩ := hfound
        obtain rfl : address = rta := Int.ofNat.inj (Option.some.inj heq)
        have hlength := congrArg List.length hdrop
        have hlong := b.addressed a hlast
        rw [List.length_drop, List.length_append] at hlength
        rw [ethAlen] at hlong ⊢
        omega

/-- The two numbers of `struct ifinfomsg`. -/
theorem ifinfomsg_read (stack : Memory) :
    (Memory.ofBlock block stack).ifiIndex p = b.info.index ∧
      (Memory.ofBlock block stack).ifiType p = b.info.type := by
  have hwithin := h.within
  have hlength := message_length hbody
  rw [linkHeaders, sizeofNlmsghdr, sizeofIfinfomsg] at hlength
  obtain ⟨_, hindex⟩ := h.drop_add
    (image 4 m.length ++ image 2 m.type ++ m.header.bytes ++
      ([b.info.family, 0] ++ image 2 b.info.type.toNat))
    (image 4 b.info.index.toNat ++ image 4 b.info.flags.toNat ++
      image 4 b.info.change.toNat ++ layout b.attributes)
    (by simp only [RouteMessage.bytes, hbody, LinkBody.bytes, Ifinfomsg.bytes, List.append_assoc])
  obtain ⟨_, htype⟩ := h.drop_add
    (image 4 m.length ++ image 2 m.type ++ m.header.bytes ++ [b.info.family, 0])
    (image 2 b.info.type.toNat ++ image 4 b.info.index.toNat ++
      image 4 b.info.flags.toNat ++ image 4 b.info.change.toNat ++ layout b.attributes)
    (by simp only [RouteMessage.bytes, hbody, LinkBody.bytes, Ifinfomsg.bytes, List.append_assoc])
  simp only [List.length_append, image_length, RouteMessage.header_length, List.length_cons,
    List.length_nil, List.append_assoc] at hindex htype
  have hreadIndex := @Memory.ofBlock_read block (p + 20) 4 stack (by omega)
  have hreadType := @Memory.ofBlock_read block (p + 18) 2 stack (by omega)
  rw [hindex, List.take_left' (image_length 4 _)] at hreadIndex
  rw [htype, List.take_left' (image_length 2 _)] at hreadType
  constructor
  · have hvalue := congrArg value hreadIndex
    rw [value_image_of_lt b.info.index.toNat_lt] at hvalue
    have heq := congrArg UInt32.ofNat hvalue
    rw [UInt32.ofNat_toNat] at heq
    exact heq
  · have hvalue := congrArg value hreadType
    rw [value_image_of_lt b.info.type.toNat_lt] at hvalue
    have heq := congrArg UInt16.ofNat hvalue
    rw [UInt16.ofNat_toNat] at heq
    exact heq

theorem address_read (stack : Memory) (hmax : iflaAddress ≤ iflaMax) :
    (tableOf iflaMax block p iflaAddress).map (fun rta =>
      (Memory.ofBlock block stack).etherAddr (Memory.rtaData rta)) = b.address := by
  have hfound := tableOf_found h hbody iflaAddress hmax
  rw [LinkBody.address]
  cases hlast : last iflaAddress b.attributes with
  | none =>
    rw [hlast] at hfound
    rw [hfound]
    rfl
  | some a =>
    rw [hlast] at hfound
    obtain ⟨rta, htable, behind, hdrop⟩ := hfound
    have hlong := b.addressed a hlast
    have hlength := congrArg List.length hdrop
    rw [List.length_drop, List.length_append] at hlength
    have hpos : 0 < ethAlen := by decide
    have hread := @Memory.ofBlock_read block (rta + sizeofRtattr) ethAlen stack (by omega)
    rw [hdrop, List.take_append_of_le_length hlong] at hread
    rw [htable, Option.map_some, Option.bind_some, dif_pos hlong]
    congr 1
    exact EtherAddr.ext_octets hread

/-- An attribute is found when the message has one of its type. -/
theorem tableOf_isSome (type : Nat) (hmax : type ≤ iflaMax) :
    (tableOf iflaMax block p type).isSome = (last type b.attributes).isSome := by
  have hfound := tableOf_found h hbody type hmax
  cases hlast : last type b.attributes with
  | none =>
    rw [hlast] at hfound
    rw [hfound]
    rfl
  | some a =>
    rw [hlast] at hfound
    obtain ⟨rta, htable, _⟩ := hfound
    rw [htable]
    rfl

/-- What a function takes from a message is what it says, when the function goes on. -/
theorem linkAt_message (stack : Memory) (hmax : iflaIfname ≤ iflaMax) {d : Dispatch}
    (hd : d.header = p) :
    linkAt iflaMax (Memory.ofBlock block stack) d =
      some (b.link.filter fun link => !d.asksAddress || link.address.isSome) := by
  have haddressMax : iflaAddress ≤ iflaMax := Nat.le_trans (by decide) hmax
  have hfound := tableOf_found h hbody iflaIfname hmax
  have hgoes : d.goesOn (tableOf iflaMax block p) = ((last iflaIfname b.attributes).isSome &&
      (!d.asksAddress || b.address.isSome)) := by
    rw [Dispatch.goesOn, tableOf_isSome h hbody iflaIfname hmax,
      tableOf_isSome h hbody iflaAddress haddressMax, b.address_isSome]
  rw [LinkBody.link]
  cases hlast : last iflaIfname b.attributes with
  | none =>
    rw [hlast, Option.isSome_none, Bool.false_and] at hgoes
    rw [linkAt_none h.wholeAt stack hd hgoes]
    rfl
  | some a =>
    rw [hlast] at hfound
    rw [hlast, Option.isSome_some, Bool.true_and] at hgoes
    obtain ⟨name, htable, behind, hdrop⟩ := hfound
    rw [Option.map_some, Option.filter_some]
    cases haddress : !d.asksAddress || b.address.isSome with
    | false =>
      rw [haddress] at hgoes
      rw [linkAt_none h.wholeAt stack hd hgoes]
      rfl
    | true =>
      rw [haddress] at hgoes
      obtain ⟨hindex, htype⟩ := ifinfomsg_read h hbody fun _ => 0
      rw [linkAt_readable h.wholeAt hd hgoes htable (link_readable h hbody hmax d) stack, hindex,
        htype, address_read h hbody (fun _ => 0) haddressMax, hdrop,
        (CString.ofBuffer_append (b.named a hlast) behind).1]
      rfl

end Link

/-! ## Reading a datagram back -/

section Datagram

variable {iflaMax : Nat} {block : List UInt8} {stack : Memory} {around : Int → Around} {p : Nat}

theorem standsAt_cons {m : RouteMessage} {ms : List RouteMessage}
    (h : block.drop p = datagram (m :: ms)) (hfits : block.length ≤ iflistReplyBuffer) :
    StandsAt block m p ∧ block.drop (p + align m.length) = datagram ms := by
  rw [datagram_cons] at h
  constructor
  · refine ⟨⟨List.replicate (align m.length - m.length) 0 ++ datagram ms, ?_⟩, hfits⟩
    rw [h, RouteMessage.padded, List.append_assoc]
  · rw [← List.drop_drop, h, ← m.padded_length, List.drop_left]

theorem messageLoop_datagram {ms : List RouteMessage} {rounds : Nat} {c : Cursor}
    (hfits : block.length ≤ iflistReplyBuffer) (h : block.drop p = datagram ms)
    (hc : Cursor.At block p c) (hrounds : block.length - p < rounds) :
    messageLoop (Memory.ofBlock block stack) rounds c = some (dispatchesFrom p ms) := by
  induction ms generalizing p rounds c with
  | nil =>
    obtain ⟨rounds, rfl⟩ := Nat.exists_eq_add_of_le' (Nat.lt_of_le_of_lt (Nat.zero_le _) hrounds)
    rw [messageLoop, if_neg]
    · rfl
    · rw [hc.ok_iff stack, h]
      exact fun hwhole => absurd hwhole.1 (by decide)
  | cons m ms ih =>
    obtain ⟨rounds, rfl⟩ := Nat.exists_eq_add_of_le' (Nat.lt_of_le_of_lt (Nat.zero_le _) hrounds)
    obtain ⟨hstands, hrest⟩ := standsAt_cons h hfits
    have hwhole := hstands.wholeAt.whole
    have hlength : (block.drop p).length = align m.length + (datagram ms).length := by
      rw [h, datagram_cons, List.length_append, m.padded_length]
    have hnext := hc.next stack hwhole hfits (by rw [hstands.nlmsgLen]; omega)
    rw [hstands.nlmsgLen] at hnext
    have hle := le_align m.length
    have hheader : sizeofNlmsghdr ≤ m.length := Nat.le_add_right _ _
    rw [sizeofNlmsghdr] at hheader
    have hwithin := hstands.within
    rw [messageLoop, if_pos ((hc.ok_iff stack).mpr hwhole), ih hrest hnext (by omega),
      hstands.dispatch stack c hc.header]
    rfl

/-- A link that vanishes without an address is not looked for. -/
theorem handle_delLink (link : Option Link) (s : Interfaces) :
    ((link.filter fun link => link.address.isSome).map Interfaces.Event.delLink).toList.foldl
        Interfaces.handle s =
      (link.map Interfaces.Event.delLink).toList.foldl Interfaces.handle s := by
  cases link with
  | none => rfl
  | some link =>
    obtain ⟨index, type, name, address⟩ := link
    cases address with
    | some address => rfl
    | none =>
      have hnone : s.delNetInterface ⟨index, type, name, none⟩ = s := by
        rw [Interfaces.delNetInterface]
        cases name <;> rfl
      exact hnone.symm

theorem dispatched_message {m : RouteMessage} (h : StandsAt block m p) (hmax : iflaIfname ≤ iflaMax)
    (s : Interfaces) :
    (m.dispatches p).foldlM (Interfaces.dispatched iflaMax (Memory.ofBlock block stack) around) s =
      some ((m.events (around p)).foldl Interfaces.handle s) := by
  cases m with
  | newLink header body =>
    have hlink : linkAt iflaMax (Memory.ofBlock block stack) (.newNetInterface p) =
        some (body.link.filter fun _ => true) :=
      @linkAt_message iflaMax block _ body p h rfl stack hmax (.newNetInterface p) rfl
    have hcall : Interfaces.dispatched iflaMax (Memory.ofBlock block stack) around s
        (.newNetInterface p) =
          some (((RouteMessage.newLink header body).events (around p)).foldl Interfaces.handle
            s) := by
      rw [Interfaces.dispatched, hlink, RouteMessage.events]
      cases body.link <;> rfl
    rw [RouteMessage.dispatches, List.foldlM_cons, hcall]
    rfl
  | delLink header body =>
    have hlink : linkAt iflaMax (Memory.ofBlock block stack) (.delNetInterface p) =
        some (body.link.filter fun link => link.address.isSome) :=
      @linkAt_message iflaMax block _ body p h rfl stack hmax (.delNetInterface p) rfl
    have hcall : Interfaces.dispatched iflaMax (Memory.ofBlock block stack) around s
        (.delNetInterface p) =
          some (((RouteMessage.delLink header body).events (around p)).foldl Interfaces.handle
            s) := by
      rw [Interfaces.dispatched, hlink, RouteMessage.events, ← handle_delLink]
      cases body.link.filter fun link => link.address.isSome <;> rfl
    rw [RouteMessage.dispatches, List.foldlM_cons, hcall]
    rfl
  | other _ _ _ _ => rfl

theorem dispatched_datagram {ms : List RouteMessage} (hfits : block.length ≤ iflistReplyBuffer)
    (h : block.drop p = datagram ms) (hmax : iflaIfname ≤ iflaMax) (s : Interfaces) :
    (dispatchesFrom p ms).foldlM
        (Interfaces.dispatched iflaMax (Memory.ofBlock block stack) around) s =
      some ((eventsFrom around p ms).foldl Interfaces.handle s) := by
  induction ms generalizing p s with
  | nil => rfl
  | cons m ms ih =>
    obtain ⟨hstands, hrest⟩ := standsAt_cons h hfits
    rw [dispatchesFrom, eventsFrom, List.foldlM_append, dispatched_message hstands hmax,
      List.foldl_append]
    exact ih hrest _

end Datagram

namespace Interfaces

/-- A datagram is understood as it was meant: whatever messages it holds and whatever
attributes these have, and whatever lies in memory behind them, the list of interfaces
becomes what the messages say, one after the other. -/
theorem recvInetEvent_datagram (iflaMax : Nat) (stack : Memory) (around : Int → Around)
    (ms : List RouteMessage) (s : Interfaces) (hmax : iflaIfname ≤ iflaMax)
    (hfits : (datagram ms).length ≤ iflistReplyBuffer) :
    recvInetEvent iflaMax (Memory.ofBlock (datagram ms) stack) around ((datagram ms).length + 1)
        (Int32.ofNat (datagram ms).length) s =
      some ((eventsFrom around 0 ms).foldl handle s) := by
  have hcursor : Cursor.At (datagram ms) 0 ⟨0, Int32.ofNat (datagram ms).length⟩ := by
    refine ⟨rfl, ?_, Nat.zero_le _⟩
    rw [iflistReplyBuffer] at hfits
    have hret : (Int32.ofNat (datagram ms).length).toInt = (datagram ms).length :=
      Int32.toInt_ofNat_of_lt (by omega)
    have hpos : 0 ≤ (Int32.ofNat (datagram ms).length).toInt := hret ▸ Int.natCast_nonneg _
    have hleft := Signed.toUInt32_of_nonneg hpos
    rw [hret] at hleft
    exact hleft
  have hloop : messageLoop (Memory.ofBlock (datagram ms) stack) ((datagram ms).length + 1)
      ⟨0, Int32.ofNat (datagram ms).length⟩ = some (dispatchesFrom 0 ms) :=
    messageLoop_datagram hfits rfl hcursor (Nat.lt_succ_self _)
  rw [recvInetEvent, hloop]
  exact dispatched_datagram hfits rfl hmax s

def iflaMtu : Nat := 4

theorem iflaMtu_fits : iflaMtu < 2 ^ 14 := by
  decide

theorem four_fits : headerSize + 4 < 2 ^ 16 := by
  decide

theorem six_fits : headerSize + 6 < 2 ^ 16 := by
  decide

/-- What the kernel says of the interface `wlan0`: the address comes first, and an
attribute that nobody asks for lies between. -/
def wlan0Attributes : List Attribute :=
  [⟨iflaAddress, [2, 0, 0, 0, 0, 0], iflaAddress_fits, six_fits⟩,
    ⟨iflaMtu, [220, 5, 0, 0], iflaMtu_fits, four_fits⟩,
    ⟨iflaIfname, [119, 108, 97, 110, 48, 0], iflaIfname_fits, six_fits⟩]

theorem wlan0Attributes_named (a : Attribute) (ha : last iflaIfname wlan0Attributes = some a) :
    0 ∈ a.payload := by
  cases ha
  decide

theorem wlan0Attributes_addressed (a : Attribute)
    (ha : last iflaAddress wlan0Attributes = some a) : ethAlen ≤ a.payload.length := by
  cases ha
  decide

def wlan0Body : LinkBody :=
  ⟨⟨0, 1, 3, 4099, 0⟩, wlan0Attributes, wlan0Attributes_named, wlan0Attributes_addressed⟩

/-- A new address, a new link and its end. -/
def comesAndGoes : List RouteMessage :=
  [.other 20 ⟨0, 1, 0⟩ [7] (by decide), .newLink ⟨0, 2, 0⟩ wlan0Body, .delLink ⟨0, 3, 0⟩ wlan0Body]

theorem recvInetEvent_datagram_wlan0 :
    (recvInetEvent 60 (Memory.ofBlock (datagram comesAndGoes) fun _ => 0)
        (fun _ => ⟨⟨List.replicate 6 0, rfl⟩, some (report3 ⟨[119, 108, 97, 110, 48], by decide⟩)⟩)
        ((datagram comesAndGoes).length + 1) (Int32.ofNat (datagram comesAndGoes).length) init).map
      (fun s => (s.initInterfaces, s.listWinterfaces.values)) = some (true, []) := by
  rw [recvInetEvent_datagram 60 _ _ _ _ (by decide) (by decide +kernel)]
  decide +kernel

end Interfaces

end Vwifi
