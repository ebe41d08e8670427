import Vwifi.SocketSpec

/-!
# The framing of signals

A frame on the wire is one power byte and a netlink message that announces its
own length. `recvSignal_cases` says what one call of `RecvSignalWithSocket` can
do with the bytes a peer delivers; the round trip follows from it by induction
on the frames.
-/

namespace Vwifi

set_option autoImplicit false

open LittleEndian

/-- A frame a reader can find its way through. -/
structure Frame where
  power : TPower
  message : List UInt8
  header : CWifi.nlmsgLen message = message.length
  complete : sizeofNlmsghdr ≤ message.length
  bounded : (message.length : Int) ≤ mtu

def Frame.bytes (f : Frame) : List UInt8 := f.power.toUInt8 :: f.message

@[simp] theorem Frame.bytes_length (f : Frame) : f.bytes.length = 1 + f.message.length := by
  rw [bytes, List.length_cons, Nat.add_comm]

namespace CWifi

theorem nlmsgLen_congr {xs ys : List UInt8} (h : xs.take 4 = ys.take 4) :
    nlmsgLen xs = nlmsgLen ys := by
  simp only [nlmsgLen, h]

theorem lengthField_lt (message : List UInt8) : value (message.take 4) < 2 ^ 32 := by
  have hle : (message.take 4).length ≤ 4 := List.length_take_le 4 message
  calc value (message.take 4) < 256 ^ (message.take 4).length := value_lt _
    _ ≤ 256 ^ 4 := Nat.pow_le_pow_right (by omega) hle
    _ = 2 ^ 32 := rfl

/-- The length field is read as a signed number. -/
theorem nlmsgLen_eq (message : List UInt8) :
    nlmsgLen message =
      if 2 * value (message.take 4) < 2 ^ 32 then (value (message.take 4) : Int)
      else value (message.take 4) - (2 ^ 32 : Nat) := by
  have hlt := lengthField_lt message
  have heq : nlmsgLen message = (BitVec.ofNat 32 (value (message.take 4))).toInt := rfl
  rw [heq, BitVec.toInt_eq_toNat_cond, BitVec.toNat_ofNat, Nat.mod_eq_of_lt hlt]

theorem nlmsgLen_of_lt {message : List UInt8} (h : value (message.take 4) < 2 ^ 31) :
    nlmsgLen message = value (message.take 4) := by
  rw [nlmsgLen_eq, if_pos (by omega)]

theorem nlmsgLen_of_nonneg {message : List UInt8} (h : 0 ≤ nlmsgLen message) :
    nlmsgLen message = value (message.take 4) := by
  have hlt := lengthField_lt message
  rw [nlmsgLen_eq] at h ⊢
  split
  · rfl
  · rename_i hneg
    rw [if_neg hneg] at h
    omega

/-- What one call of `RecvSignalWithSocket` does: it fails, or it takes a power
byte and a header whose length field is the result, and stores that many bytes.
The length is checked from above only, so a result below 16 is possible. -/
inductive RecvCases (k : Kernel) (d : TDescriptor) (r : Received) : Prop where
  | failed (h : r.valread = socketError)
      (incomplete : ∀ b rest, k.supply d = b :: rest → sizeofNlmsghdr ≤ rest.length →
        nlmsgLen rest ≤ mtu → rest.length < (nlmsgLen rest).toNat)
  | stored (b : UInt8) (rest : List UInt8)
      (supply : k.supply d = b :: rest)
      (header : sizeofNlmsghdr ≤ rest.length)
      (valread : r.valread = nlmsgLen rest)
      (bounded : r.valread ≤ mtu)
      (arrived : r.valread.toNat ≤ rest.length)
      (power : r.power = b.toInt8)
      (message : r.buffer.buffer.take r.valread.toNat = rest.take r.valread.toNat)
      (left : r.kernel.supply d = rest.drop (max sizeofNlmsghdr r.valread.toNat))

section Receive

variable {k : Kernel} {d : TDescriptor} {power : TPower} {buffer : CDynBuffer}

theorem readPower_none (h : k.supply d = []) :
    (recvSignalWithSocket k d power buffer).valread = socketError ∧
      (recvSignalWithSocket k d power buffer).buffer = buffer := by
  have hnone : (CSocket.read k d 1).1 = none := by
    cases hread : (CSocket.read k d 1).1 with
    | none => rfl
    | some bytes =>
      obtain ⟨hne, _, hsupply⟩ := CSocket.read_some hread
      rw [h] at hsupply
      exact absurd (List.append_eq_nil_iff.mp hsupply.symm).1 hne
  unfold recvSignalWithSocket
  rw [show CSocket.read k d 1 = (none, (CSocket.read k d 1).2) from Prod.ext hnone rfl]
  exact ⟨rfl, rfl⟩

theorem readPower_some {b : UInt8} {rest : List UInt8} (h : k.supply d = b :: rest) :
    ∃ k', CSocket.read k d 1 = (some [b], k') ∧ k'.supply d = rest := by
  cases hread : (CSocket.read k d 1).1 with
  | none =>
    have hnil := CSocket.read_none Nat.one_pos hread
    rw [h] at hnil
    cases hnil
  | some bytes =>
    obtain ⟨hne, hle, hsupply⟩ := CSocket.read_some hread
    refine ⟨(CSocket.read k d 1).2, Prod.ext ?_ rfl, ?_⟩
    all_goals
      cases bytes with
      | nil => exact absurd rfl hne
      | cons a as =>
        have has : as = [] := by
          rw [List.length_cons] at hle
          exact List.length_eq_zero_iff.mp (by omega)
        subst has
        rw [h, List.singleton_append] at hsupply
        obtain ⟨rfl, hrest⟩ := List.cons.inj hsupply
        first
          | exact hread
          | exact hrest.symm

/-- What the buffer holds once the bytes that `arrived` behind the power byte are stored
as far as the header goes. -/
def headerIn (heap : Nat → UInt8) (buffer : CDynBuffer) (arrived : List UInt8) : CDynBuffer :=
  (buffer.neededSize heap sizeofNlmsghdr false).store 0 (arrived.take sizeofNlmsghdr)

/-- Without a whole header the call fails; what there is of it is stored. -/
theorem recvSignal_short {b : UInt8} {rest : List UInt8} (h : k.supply d = b :: rest)
    (hshort : rest.length < sizeofNlmsghdr) :
    (recvSignalWithSocket k d power buffer).valread = socketError ∧
      (recvSignalWithSocket k d power buffer).buffer = headerIn k.heap buffer rest := by
  obtain ⟨k₁, hread, hsupply₁⟩ := readPower_some h
  have hheap₁ : k₁.heap = k.heap := by
    have hreads := CSocket.read_readsFrom k d 1
    rw [hread] at hreads
    exact hreads.heap
  have hheader : (CSocket.readEqualSize k₁ d buffer 0 sizeofNlmsghdr).1 = socketError := by
    apply CSocket.readEqualSize_of_lt
    rw [hsupply₁]
    simpa using hshort
  have hbuffer := @CSocket.readEqualSize_buffer k₁ d buffer 0 sizeofNlmsghdr (Nat.zero_le _)
  simp only [Int.natCast_zero, Int.sub_zero, Int.toNat_natCast, hsupply₁, hheap₁] at hbuffer
  simp only [recvSignalWithSocket, hread]
  rw [if_pos hheader]
  exact ⟨rfl, hbuffer⟩

theorem headerIn_take (heap : Nat → UInt8) (buffer : CDynBuffer) {arrived : List UInt8}
    (hheader : sizeofNlmsghdr ≤ arrived.length) :
    sizeofNlmsghdr ≤ (headerIn heap buffer arrived).buffer.length ∧
      (headerIn heap buffer arrived).buffer.take sizeofNlmsghdr = arrived.take sizeofNlmsghdr := by
  have hlen := CDynBuffer.neededSize_length heap buffer sizeofNlmsghdr false
  have htake : (arrived.take sizeofNlmsghdr).length = sizeofNlmsghdr := by
    rw [List.length_take]
    omega
  have hz := CDynBuffer.store_zero_take (b := buffer.neededSize heap sizeofNlmsghdr false)
    (arrived.take sizeofNlmsghdr)
  rw [htake] at hz
  refine ⟨?_, hz⟩
  rw [headerIn, CDynBuffer.store_length (by omega)]
  omega

theorem nlmsgLen_headerIn (heap : Nat → UInt8) (buffer : CDynBuffer) {arrived : List UInt8}
    (hheader : sizeofNlmsghdr ≤ arrived.length) :
    nlmsgLen (headerIn heap buffer arrived).buffer = nlmsgLen arrived := by
  apply nlmsgLen_congr
  calc (headerIn heap buffer arrived).buffer.take 4
      = ((headerIn heap buffer arrived).buffer.take sizeofNlmsghdr).take 4 := by
        rw [List.take_take]
        rfl
    _ = (arrived.take sizeofNlmsghdr).take 4 := by rw [(headerIn_take heap buffer hheader).2]
    _ = arrived.take 4 := by
        rw [List.take_take]
        rfl

/-- With a whole header at hand the call comes down to the second `ReadEqualSize`. -/
theorem recvSignal_header {b : UInt8} {rest : List UInt8} (h : k.supply d = b :: rest)
    (hheader : sizeofNlmsghdr ≤ rest.length) :
    ∃ k', k'.supply d = rest.drop sizeofNlmsghdr ∧ k'.heap = k.heap ∧
      recvSignalWithSocket k d power buffer =
        if mtu < nlmsgLen rest then ⟨socketError, b.toInt8, headerIn k.heap buffer rest, k'⟩
        else
          let r := CSocket.readEqualSize k' d (headerIn k.heap buffer rest) sizeofNlmsghdr
            (nlmsgLen rest)
          ⟨r.1, b.toInt8, r.2.2, r.2.1⟩ := by
  obtain ⟨k₁, hread, hsupply₁⟩ := readPower_some h
  have hheap₁ : k₁.heap = k.heap := by
    have hreads := CSocket.read_readsFrom k d 1
    rw [hread] at hreads
    exact hreads.heap
  have hn : ((sizeofNlmsghdr : Int) - (0 : Nat)).toNat ≤ (k₁.supply d).length := by
    rw [hsupply₁]
    simpa using hheader
  obtain ⟨k₂, hequal, hsupply₂⟩ :=
    CSocket.readEqualSize_of_le (b := buffer) (Nat.zero_le _) hn
  have hreads := CSocket.readEqualSize_readsFrom k₁ d buffer 0 sizeofNlmsghdr
  rw [hequal] at hreads
  simp only [Int.natCast_zero, Int.sub_zero, Int.toNat_natCast, hsupply₁, hheap₁] at hequal hsupply₂
  refine ⟨k₂, hsupply₂, hreads.heap.trans hheap₁, ?_⟩
  have hne : ((sizeofNlmsghdr : Nat) : Int) ≠ socketError := by decide
  unfold recvSignalWithSocket
  simp only [hread, hequal, if_neg hne, Int.toNat_natCast, List.headD_cons]
  rw [← nlmsgLen_headerIn k.heap buffer hheader]
  rfl

/-- What the buffer holds after a call to which the bytes `arrived` behind the power
byte: the header, and behind it the message if its length is accepted. -/
def arrivedIn (heap : Nat → UInt8) (buffer : CDynBuffer) (arrived : List UInt8) : CDynBuffer :=
  if arrived.length < sizeofNlmsghdr ∨ mtu < nlmsgLen arrived then headerIn heap buffer arrived
  else
    ((headerIn heap buffer arrived).neededSize heap (nlmsgLen arrived) true).store sizeofNlmsghdr
      ((arrived.drop sizeofNlmsghdr).take (nlmsgLen arrived - sizeofNlmsghdr).toNat)

theorem recvSignal_buffer (k : Kernel) (d : TDescriptor) (power : TPower) (buffer : CDynBuffer) :
    (recvSignalWithSocket k d power buffer).buffer =
      match k.supply d with
      | [] => buffer
      | _ :: arrived => arrivedIn k.heap buffer arrived := by
  cases hsupply : k.supply d with
  | nil => exact (readPower_none hsupply).2
  | cons b arrived =>
    dsimp only
    unfold arrivedIn
    by_cases hheader : sizeofNlmsghdr ≤ arrived.length
    · obtain ⟨k', hrest, hheap, heq⟩ :=
        @recvSignal_header k d power buffer b arrived hsupply hheader
      rw [heq]
      by_cases hmtu : mtu < nlmsgLen arrived
      · rw [if_pos hmtu, if_pos (Or.inr hmtu)]
      · have hstored := (headerIn_take k.heap buffer hheader).1
        have hbuffer := @CSocket.readEqualSize_buffer k' d _ _ (nlmsgLen arrived) hstored
        rw [hrest, hheap] at hbuffer
        rw [if_neg hmtu, if_neg (not_or.mpr ⟨Nat.not_lt.mpr hheader, hmtu⟩)]
        exact hbuffer
    · have hshort := Nat.lt_of_not_le hheader
      rw [if_pos (Or.inl hshort)]
      exact (recvSignal_short hsupply hshort).2

theorem store_message {b : CDynBuffer} {rest : List UInt8} {n : Nat}
    (hn : n ≤ rest.length)
    (htake : b.buffer.take sizeofNlmsghdr = rest.take sizeofNlmsghdr) :
    (b.store sizeofNlmsghdr ((rest.drop sizeofNlmsghdr).take (n - sizeofNlmsghdr))).buffer.take n =
      rest.take n := by
  by_cases hle : n ≤ sizeofNlmsghdr
  · rw [Nat.sub_eq_zero_of_le hle, List.take_zero, CDynBuffer.store_nil]
    calc b.buffer.take n = (b.buffer.take sizeofNlmsghdr).take n := by
          rw [List.take_take, Nat.min_eq_left hle]
      _ = rest.take n := by rw [htake, List.take_take, Nat.min_eq_left hle]
  · have hhead : (rest.take sizeofNlmsghdr ++
        (rest.drop sizeofNlmsghdr).take (n - sizeofNlmsghdr)).length = n := by
      simp only [List.length_append, List.length_take, List.length_drop]
      omega
    rw [CDynBuffer.store, htake, List.take_left' hhead, ← List.take_add]
    congr 1
    omega

/-- The header and the message behind it are stored as they arrived. -/
theorem arrivedIn_take (heap : Nat → UInt8) (buffer : CDynBuffer) {arrived : List UInt8}
    (hheader : sizeofNlmsghdr ≤ arrived.length) (hbounded : nlmsgLen arrived ≤ mtu)
    (hcomplete : (nlmsgLen arrived).toNat ≤ arrived.length) :
    (arrivedIn heap buffer arrived).buffer.take (max sizeofNlmsghdr (nlmsgLen arrived).toNat) =
      arrived.take (max sizeofNlmsghdr (nlmsgLen arrived).toNat) := by
  have hcond : ¬ (arrived.length < sizeofNlmsghdr ∨ mtu < nlmsgLen arrived) :=
    not_or.mpr ⟨Nat.not_lt.mpr hheader, Int.not_lt.mpr hbounded⟩
  obtain ⟨hstored, htake⟩ := headerIn_take heap buffer hheader
  have hgrown := CDynBuffer.neededSize_keep_take heap (headerIn heap buffer arrived)
    (nlmsgLen arrived) hstored
  have hsize : (nlmsgLen arrived - sizeofNlmsghdr).toNat =
      max sizeofNlmsghdr (nlmsgLen arrived).toNat - sizeofNlmsghdr := by omega
  rw [arrivedIn, if_neg hcond, hsize]
  exact store_message (Nat.max_le.mpr ⟨hheader, hcomplete⟩) (hgrown.trans htake)

/-- The bytes of its message that an accepted call has taken from the stream. -/
def Received.message (r : Received) : List UInt8 :=
  r.buffer.buffer.take (max sizeofNlmsghdr r.valread.toNat)

theorem recvSignal_readsFrom (k : Kernel) (d : TDescriptor) (power : TPower)
    (buffer : CDynBuffer) : k.ReadsFrom d (recvSignalWithSocket k d power buffer).kernel := by
  have hread := CSocket.read_readsFrom k d 1
  unfold recvSignalWithSocket
  split <;> rename_i heq <;> rw [heq] at hread
  · exact hread
  · rename_i bytes k₁
    have hheader := CSocket.readEqualSize_readsFrom k₁ d buffer 0 sizeofNlmsghdr
    split
    rename_i sizeRead k₂ b₂ heq₂
    rw [heq₂] at hheader
    have hk₂ := hread.trans hheader
    split
    · exact hk₂
    · dsimp only
      split
      · exact hk₂
      · exact hk₂.trans (CSocket.readEqualSize_readsFrom k₂ d b₂ _ _)

theorem recvSignal_cases (k : Kernel) (d : TDescriptor) (power : TPower) (buffer : CDynBuffer) :
    RecvCases k d (recvSignalWithSocket k d power buffer) := by
  cases hsupply : k.supply d with
  | nil =>
    refine .failed (readPower_none hsupply).1 fun b rest h => ?_
    rw [hsupply] at h
    cases h
  | cons b rest =>
    by_cases hheader : sizeofNlmsghdr ≤ rest.length
    · obtain ⟨k', hrest, _, heq⟩ := @recvSignal_header k d power buffer b rest hsupply hheader
      obtain ⟨hb', htake⟩ := headerIn_take k.heap buffer hheader
      generalize headerIn k.heap buffer rest = b' at heq hb' htake
      rw [heq]
      split
      · rename_i hmtu
        refine .failed rfl fun b rest' h _ hle => ?_
        rw [hsupply] at h
        obtain ⟨_, rfl⟩ := List.cons.inj h
        omega
      · rename_i hmtu
        by_cases harrived : (nlmsgLen rest - sizeofNlmsghdr).toNat ≤ (k'.supply d).length
        · obtain ⟨k'', hequal, hleft⟩ := CSocket.readEqualSize_of_le hb' harrived
          rw [hequal]
          rw [hrest, List.length_drop] at harrived
          have hsize : (nlmsgLen rest - sizeofNlmsghdr).toNat =
              (nlmsgLen rest).toNat - sizeofNlmsghdr := by omega
          have hgrown := CDynBuffer.neededSize_keep_take k'.heap b' (nlmsgLen rest) hb'
          have hn : (nlmsgLen rest).toNat ≤ rest.length := by omega
          refine .stored b rest hsupply hheader rfl (Int.not_lt.mp hmtu) hn rfl ?_ ?_
          · rw [hsize, hrest]
            exact store_message hn (hgrown.trans htake)
          · have hdrop : sizeofNlmsghdr + ((nlmsgLen rest).toNat - sizeofNlmsghdr) =
                max sizeofNlmsghdr (nlmsgLen rest).toNat := by omega
            rw [hleft, hrest, hsize, List.drop_drop, hdrop]
        · refine .failed (CSocket.readEqualSize_of_lt (by omega)) fun b rest' h hle _ => ?_
          rw [hsupply] at h
          obtain ⟨_, rfl⟩ := List.cons.inj h
          rw [hrest, List.length_drop] at harrived
          omega
    · refine .failed (recvSignal_short hsupply (Nat.lt_of_not_le hheader)).1 fun b rest' h hle => ?_
      rw [hsupply] at h
      obtain ⟨_, rfl⟩ := List.cons.inj h
      exact absurd hle hheader

/-- An accepted call has stored as many bytes as it returns, and at least the header. -/
theorem recvSignal_message (hne : (recvSignalWithSocket k d power buffer).valread ≠ socketError) :
    (recvSignalWithSocket k d power buffer).message.length =
        max sizeofNlmsghdr (recvSignalWithSocket k d power buffer).valread.toNat ∧
      nlmsgLen (recvSignalWithSocket k d power buffer).message =
        (recvSignalWithSocket k d power buffer).valread := by
  have hbuffer := recvSignal_buffer k d power buffer
  cases recvSignal_cases k d power buffer with
  | failed hfailed _ => exact absurd hfailed hne
  | stored b arrived supply header valread bounded complete _ _ _ =>
    rw [supply] at hbuffer
    rw [valread] at bounded complete ⊢
    have htake := arrivedIn_take k.heap buffer header bounded complete
    rw [Received.message, hbuffer, valread]
    dsimp only
    rw [htake]
    constructor
    · rw [List.length_take]
      exact Nat.min_eq_left (Nat.max_le.mpr ⟨header, complete⟩)
    · apply nlmsgLen_congr
      rw [List.take_take]
      congr 1
      rw [sizeofNlmsghdr]
      omega

end Receive

/-! ## Sending over a stream that takes everything -/

/-- The next sends on `d` are taken whole, each up to a power byte and a message. -/
def Reliable (k : Kernel) (d : TDescriptor) (sends : Nat) : Prop :=
  sends ≤ (k.room d).length ∧ ∀ m ∈ k.room d, mtu ≤ m

theorem send_reliable {k : Kernel} {d : TDescriptor} {sends : Nat} {data : List UInt8}
    (h : Reliable k d (sends + 1)) (hdata : (data.length : Int) ≤ mtu) :
    ∃ k', CSocket.send k d data = (some data.length, k') ∧ Reliable k' d sends ∧
      sentOn d k'.log = sentOn d k.log ++ data := by
  obtain ⟨hlen, hroom⟩ := h
  cases hlist : k.room d with
  | nil =>
    rw [hlist, List.length_nil] at hlen
    omega
  | cons m rest =>
    rw [hlist] at hlen hroom
    have hm : mtu ≤ m := hroom m List.mem_cons_self
    have hmin : min m data.length = data.length := by omega
    refine ⟨(k.send d data).2, ?_, ⟨?_, ?_⟩, ?_⟩
    · simp [CSocket.send, Kernel.send, hlist, hmin]
    · simp only [Kernel.send, hlist, Function.update_self, List.tail_cons]
      rw [List.length_cons] at hlen
      omega
    · simp only [Kernel.send, hlist, Function.update_self, List.tail_cons]
      exact fun x hx => hroom x (List.mem_cons_of_mem m hx)
    · simp [Kernel.send, hlist, sentOn_append, sentStep, hmin]

theorem sendSignal_reliable {k : Kernel} {d : TDescriptor} {sends : Nat} (f : Frame)
    (h : Reliable k d (sends + 2)) :
    ∃ k', sendSignalWithSocket k d f.power f.message = (some f.message.length, k') ∧
      Reliable k' d sends ∧ sentOn d k'.log = sentOn d k.log ++ f.bytes := by
  have hone : ([f.power.toUInt8].length : Int) ≤ mtu := by simp [mtu]
  obtain ⟨k₁, hsend₁, hrel₁, hsent₁⟩ := send_reliable h hone
  obtain ⟨k₂, hsend₂, hrel₂, hsent₂⟩ := send_reliable hrel₁ f.bounded
  refine ⟨k₂, ?_, hrel₂, ?_⟩
  · simp only [sendSignalWithSocket, hsend₁, hsend₂]
  · rw [hsent₂, hsent₁, Frame.bytes, List.append_assoc, List.singleton_append]

/-- Successive calls of `SendSignalWithSocket`. -/
def sendFrames (d : TDescriptor) : List Frame → Kernel → Kernel
  | [], k => k
  | f :: fs, k => sendFrames d fs (sendSignalWithSocket k d f.power f.message).2

theorem sendFrames_reliable (d : TDescriptor) (fs : List Frame) (k : Kernel)
    (h : Reliable k d (2 * fs.length)) :
    sentOn d (sendFrames d fs k).log = sentOn d k.log ++ fs.flatMap Frame.bytes := by
  induction fs generalizing k with
  | nil => simp [sendFrames]
  | cons f fs ih =>
    have h' : Reliable k d (2 * fs.length + 2) := by
      simpa [List.length_cons, Nat.mul_add] using h
    obtain ⟨k', hsend, hrel, hsent⟩ := sendSignal_reliable f h'
    rw [sendFrames, hsend, ih k' hrel, hsent, List.flatMap_cons, List.append_assoc]

/-! ## The round trip -/

theorem nlmsgLen_append {f : Frame} {message rest : List UInt8}
    (h : message = f.message.take message.length) (hlen : sizeofNlmsghdr ≤ message.length) :
    nlmsgLen (message ++ rest) = f.message.length := by
  rw [← f.header]
  apply nlmsgLen_congr
  have h4 : 4 ≤ message.length := Nat.le_trans (by decide) hlen
  rw [List.take_append_of_le_length h4, h, List.take_take, Nat.min_eq_left h4]

section OneCall

variable {k : Kernel} {d : TDescriptor} {power : TPower} {buffer : CDynBuffer}

/-- A frame at the head of the stream is returned as it was sent. -/
theorem recvSignal_frame (f : Frame) {rest : List UInt8} (h : k.supply d = f.bytes ++ rest) :
    let r := recvSignalWithSocket k d power buffer
    r.valread = f.message.length ∧ r.power = f.power ∧
      r.buffer.buffer.take r.valread.toNat = f.message ∧ r.kernel.supply d = rest := by
  intro r
  have hcomplete := f.complete
  have hlen : nlmsgLen (f.message ++ rest) = f.message.length :=
    nlmsgLen_append (List.take_length).symm hcomplete
  rw [Frame.bytes, List.cons_append] at h
  cases recvSignal_cases k d power buffer with
  | failed _ incomplete =>
    have hlt := incomplete _ _ h (by rw [List.length_append]; omega) (hlen ▸ f.bounded)
    rw [hlen, List.length_append] at hlt
    omega
  | stored b rest' supply _ valread _ _ power message left =>
    rw [h] at supply
    obtain ⟨rfl, rfl⟩ := List.cons.inj supply
    have hvalread : r.valread = f.message.length := valread.trans hlen
    have htoNat : r.valread.toNat = f.message.length := by omega
    refine ⟨hvalread, ?_, ?_, ?_⟩
    · rw [power, Int8.toInt8_toUInt8]
    · rw [message, htoNat, List.take_left]
    · rw [left, htoNat, Nat.max_eq_right hcomplete, List.drop_left]

/-- A stream that ends inside a frame makes the call fail. -/
theorem recvSignal_cut (f : Frame) {n : Nat} (hn : n < f.bytes.length)
    (h : k.supply d = f.bytes.take n) :
    (recvSignalWithSocket k d power buffer).valread = socketError := by
  cases recvSignal_cases k d power buffer with
  | failed h _ => exact h
  | stored b rest supply header valread _ arrived _ _ _ =>
    cases n with
    | zero =>
      rw [h, List.take_zero] at supply
      cases supply
    | succ n =>
      rw [h, Frame.bytes, List.take_succ_cons] at supply
      obtain ⟨rfl, rfl⟩ := List.cons.inj supply
      have hrest : (f.message.take n).length = n := by
        rw [List.length_take]
        rw [Frame.bytes_length] at hn
        omega
      have hlen : nlmsgLen (f.message.take n) = f.message.length := by
        have hself : f.message.take n = f.message.take (f.message.take n).length := by rw [hrest]
        rw [← nlmsgLen_append hself header, List.append_nil]
      rw [Frame.bytes_length] at hn
      rw [valread, hlen, hrest] at arrived
      omega

end OneCall

/-- What one successful call returned and how many bytes it took from the stream. -/
structure Call where
  power : TPower
  size : Int
  data : List UInt8
  consumed : Nat
deriving DecidableEq

/-- Calls of `RecvSignalWithSocket` up to the first that fails, `n` at most: the
results and whether one failed. -/
def recvFrames (d : TDescriptor) (power : TPower) : Nat → Kernel → CDynBuffer →
    List Call × Bool
  | 0, _, _ => ([], false)
  | n + 1, k, buffer =>
    let r := recvSignalWithSocket k d power buffer
    if r.valread ≤ 0 then ([], true)
    else
      let call : Call :=
        ⟨r.power, r.valread, r.buffer.buffer.take r.valread.toNat,
          (k.inbox d).flatten.length - (r.kernel.inbox d).flatten.length⟩
      let rest := recvFrames d power n r.kernel r.buffer
      (call :: rest.1, rest.2)

/-- The call that returns a frame: it takes the power byte and the message. -/
def frameCall (f : Frame) : Call := ⟨f.power, f.message.length, f.message, 1 + f.message.length⟩

/-- How many whole frames the first `cut` bytes of a stream hold. -/
def wholeFrames : Nat → List Frame → Nat
  | _, [] => 0
  | cut, f :: fs => if f.bytes.length ≤ cut then wholeFrames (cut - f.bytes.length) fs + 1 else 0

theorem wholeFrames_of_le {cut : Nat} {fs : List Frame}
    (h : (fs.flatMap Frame.bytes).length ≤ cut) : wholeFrames cut fs = fs.length := by
  induction fs generalizing cut with
  | nil => rfl
  | cons f fs ih =>
    rw [List.flatMap_cons, List.length_append] at h
    rw [wholeFrames, if_pos (by omega), ih (by omega), List.length_cons]

theorem recvFrames_failed {d : TDescriptor} {power : TPower} {k : Kernel} {buffer : CDynBuffer}
    (calls : Nat) (h : (recvSignalWithSocket k d power buffer).valread = socketError) :
    recvFrames d power (calls + 1) k buffer = ([], true) := by
  simp [recvFrames, h, socketError]

/-- The calls read the whole frames of a cut stream and nothing else. -/
theorem recvFrames_stream {d : TDescriptor} {power : TPower} (fs : List Frame) (cut calls : Nat)
    {k : Kernel} {buffer : CDynBuffer} (hne : ∀ c ∈ k.inbox d, c ≠ [])
    (hstream : (k.inbox d).flatten = (fs.flatMap Frame.bytes).take cut) :
    recvFrames d power calls k buffer =
      (((fs.take (wholeFrames cut fs)).take calls).map frameCall,
        decide (wholeFrames cut fs < calls)) := by
  induction calls generalizing fs cut k buffer with
  | zero => simp [recvFrames]
  | succ calls ih =>
    have hsupply : k.supply d = (k.inbox d).flatten := Segmented.supply_eq_flatten hne
    cases fs with
    | nil =>
      rw [List.flatMap_nil, List.take_nil] at hstream
      rw [recvFrames_failed calls (readPower_none (hsupply.trans hstream)).1]
      simp [wholeFrames]
    | cons f fs =>
      rw [List.flatMap_cons] at hstream
      by_cases hfit : f.bytes.length ≤ cut
      · rw [List.take_append, List.take_of_length_le hfit] at hstream
        obtain ⟨hvalread, hpower, hdata, hleft⟩ :=
          @recvSignal_frame k d power buffer f _ (hsupply.trans hstream)
        have hne' := (recvSignal_readsFrom k d power buffer).nonempty hne
        have hstream' := (Segmented.supply_eq_flatten hne').symm.trans hleft
        have hpos : ¬ (recvSignalWithSocket k d power buffer).valread ≤ 0 := by
          have hcomplete := f.complete
          rw [sizeofNlmsghdr] at hcomplete
          omega
        have hconsumed : (k.inbox d).flatten.length -
            ((recvSignalWithSocket k d power buffer).kernel.inbox d).flatten.length =
              1 + f.message.length := by
          rw [hstream, hstream', List.length_append, Frame.bytes_length]
          omega
        have hrest := @ih fs (cut - f.bytes.length) _
          (recvSignalWithSocket k d power buffer).buffer hne' hstream'
        rw [recvFrames, if_neg hpos, hrest, hdata, hpower, hconsumed, hvalread,
          wholeFrames, if_pos hfit, List.take_succ_cons, List.take_succ_cons, List.map_cons,
          frameCall]
        simp only [Nat.add_lt_add_iff_right]
      · have hcut : cut < f.bytes.length := Nat.lt_of_not_le hfit
        rw [List.take_append_of_le_length (Nat.le_of_lt hcut)] at hstream
        rw [recvFrames_failed calls (recvSignal_cut f hcut (hsupply.trans hstream)), wholeFrames,
          if_neg hfit]
        simp

/-- Frames sent one after the other over a stream that takes everything are
received as they were sent, however `recv` splits the stream and whatever the
buffer held; where the stream is cut, the call that meets the cut fails. -/
theorem framing_round_trip (fs : List Frame) (cut calls : Nat) (power : TPower)
    (buffer : CDynBuffer) {ks kr : Kernel} {ds dr : TDescriptor}
    (hreliable : Reliable ks ds (2 * fs.length)) (hnew : sentOn ds ks.log = [])
    (hne : ∀ c ∈ kr.inbox dr, c ≠ [])
    (hstream : (kr.inbox dr).flatten = (sentOn ds (sendFrames ds fs ks).log).take cut) :
    recvFrames dr power calls kr buffer =
        (((fs.take (wholeFrames cut fs)).take calls).map frameCall,
          decide (wholeFrames cut fs < calls)) ∧
      ((sentOn ds (sendFrames ds fs ks).log).length ≤ cut →
        recvFrames dr power fs.length kr buffer = (fs.map frameCall, false)) := by
  have hsent := sendFrames_reliable ds fs ks hreliable
  rw [hnew, List.nil_append] at hsent
  rw [hsent] at hstream
  refine ⟨recvFrames_stream fs cut calls hne hstream, fun hlen => ?_⟩
  rw [hsent] at hlen
  rw [recvFrames_stream fs cut fs.length hne hstream, wholeFrames_of_le hlen]
  simp

/-- An announcement of two bytes, and a frame of four that a station sends weakly. -/
def beacon : Frame :=
  ⟨-20, [18, 0, 0, 0] ++ List.replicate 12 0 ++ [128, 9], by decide, by decide, by decide⟩

def shortData : Frame :=
  ⟨-71, [20, 0, 0, 0] ++ List.replicate 12 0 ++ [8, 1, 58, 1], by decide, by decide, by decide⟩

/-- A connection that takes everything. It delivers the two frames in four
segments, the second of which begins in one frame and ends in the other, and
ends within the payload of the second. -/
def halvedKernel : Kernel :=
  ⟨fun _ => [[236, 18, 0], [0, 0] ++ List.replicate 12 0 ++ [128, 9, 185, 20],
      [0, 0], [0] ++ List.replicate 12 0 ++ [8, 1]],
    fun _ => [2352, 2352, 2352, 2352], [], fun _ => 0, []⟩

theorem framing_round_trip_halved :
    recvFrames 7 0 3 halvedKernel ⟨[]⟩ = ([frameCall beacon], true) := by
  have hreliable : Reliable halvedKernel 7 (2 * [beacon, shortData].length) :=
    ⟨by decide, by decide⟩
  have hstream : (halvedKernel.inbox 7).flatten =
      (sentOn 7 (sendFrames 7 [beacon, shortData] halvedKernel).log).take 38 := by decide
  exact (@framing_round_trip [beacon, shortData] 38 3 0 ⟨[]⟩ halvedKernel halvedKernel 7 7
    hreliable rfl (by decide) hstream).1

end CWifi

end Vwifi
