import Vwifi.Socket

/-!
# What one socket call can do

One lemma for each function of `CSocket`: what it returns in terms of the bytes
the peer can still deliver, and which part of the kernel it touches. Later
modules use these and do not unfold the functions. The last one is about
`SendSignalWithSocket`, which the server and the client share.
-/

namespace Vwifi

set_option autoImplicit false

open Segmented

/-- `k'` comes from `k` by calls of `recv` on `d` alone. -/
structure Kernel.ReadsFrom (d : TDescriptor) (k k' : Kernel) : Prop where
  inbox : ∀ d', d' ≠ d → k'.inbox d' = k.inbox d'
  nonempty : (∀ c ∈ k.inbox d, c ≠ []) → ∀ c ∈ k'.inbox d, c ≠ []
  room : k'.room = k.room
  rands : k'.rands = k.rands
  heap : k'.heap = k.heap
  log : ∃ acts, k'.log = k.log ++ acts ∧ ∀ a ∈ acts, a.isReadOf d

namespace Kernel.ReadsFrom

variable {d : TDescriptor} {k k' k'' : Kernel}

theorem refl (d : TDescriptor) (k : Kernel) : ReadsFrom d k k :=
  ⟨fun _ _ => rfl, fun h => h, rfl, rfl, rfl, [], (List.append_nil _).symm, by simp⟩

theorem trans (h : ReadsFrom d k k') (h' : ReadsFrom d k' k'') : ReadsFrom d k k'' := by
  obtain ⟨acts, hlog, hacts⟩ := h.log
  obtain ⟨acts', hlog', hacts'⟩ := h'.log
  refine ⟨fun d' hd => (h'.inbox d' hd).trans (h.inbox d' hd),
    fun hne => h'.nonempty (h.nonempty hne), h'.room.trans h.room,
    h'.rands.trans h.rands, h'.heap.trans h.heap, acts ++ acts', ?_, ?_⟩
  · rw [hlog', hlog, List.append_assoc]
  · intro a ha
    rcases List.mem_append.mp ha with ha | ha
    · exact hacts a ha
    · exact hacts' a ha

theorem reads (h : ReadsFrom d k k') :
    ∃ acts, k'.log = k.log ++ acts ∧ ∀ a ∈ acts, a.isRead := by
  obtain ⟨acts, hlog, hacts⟩ := h.log
  exact ⟨acts, hlog, fun a ha => Act.isRead_of_isReadOf (hacts a ha)⟩

end Kernel.ReadsFrom

/-- The bytes the peer on `d` delivers before the first failure. -/
def Kernel.supply (k : Kernel) (d : TDescriptor) : List UInt8 := Segmented.supply (k.inbox d)

namespace CDynBuffer

theorem store_length {b : CDynBuffer} {offset : Nat} {bytes : List UInt8}
    (h : offset + bytes.length ≤ b.buffer.length) :
    (b.store offset bytes).buffer.length = b.buffer.length := by
  simp only [store, List.length_append, List.length_take, List.length_drop]
  omega

theorem store_store {b : CDynBuffer} {offset : Nat} {xs ys : List UInt8}
    (h : offset + xs.length ≤ b.buffer.length) :
    (b.store offset xs).store (offset + xs.length) ys = b.store offset (xs ++ ys) := by
  have hhead : (b.buffer.take offset ++ xs).length = offset + xs.length := by
    rw [List.length_append, List.length_take]
    omega
  simp only [store, List.length_append]
  rw [List.take_left' hhead, ← List.drop_drop, List.drop_left' hhead, List.drop_drop]
  simp only [List.append_assoc, Nat.add_assoc]

theorem store_nil (b : CDynBuffer) (offset : Nat) : b.store offset [] = b := by
  simp [store, List.take_append_drop]

theorem store_zero_take {b : CDynBuffer} (bytes : List UInt8) :
    (b.store 0 bytes).buffer.take bytes.length = bytes := by
  simp [store]

theorem neededSize_length (heap : Nat → UInt8) (b : CDynBuffer) (size : Int) (keep : Bool) :
    size ≤ (b.neededSize heap size keep).buffer.length := by
  unfold neededSize
  split
  · assumption
  · cases keep
    · simp only [allocate, Bool.false_eq_true, if_false, List.length_map, List.length_range]
      omega
    · simp only [allocate, if_true, List.length_append, List.length_drop, List.length_map,
        List.length_range]
      omega

theorem neededSize_grows (heap : Nat → UInt8) (b : CDynBuffer) (size : Int) (keep : Bool) :
    b.buffer.length ≤ (b.neededSize heap size keep).buffer.length := by
  by_cases h : size ≤ b.size
  · rw [neededSize, if_pos h]
  · have hlen := neededSize_length heap b size keep
    rw [CDynBuffer.size] at h
    omega

/-- Growing with `keepValues` keeps what the block held. -/
theorem neededSize_keep_take (heap : Nat → UInt8) (b : CDynBuffer) (size : Int) {n : Nat}
    (h : n ≤ b.buffer.length) : (b.neededSize heap size true).buffer.take n = b.buffer.take n := by
  unfold neededSize
  split
  · rfl
  · simp only [allocate, if_true]
    exact List.take_append_of_le_length h

end CDynBuffer

namespace CSocket

variable {k : Kernel} {d : TDescriptor} {data : List UInt8}

/-- A failed `Read` leaves nothing to read. -/
theorem read_none {n : Nat} (hn : 0 < n) (h : (read k d n).1 = none) : k.supply d = [] := by
  by_cases hnil : (deliver n (k.inbox d)).1 = []
  · exact (deliver_eq_nil_iff hn _).mp hnil
  · simp [read, Kernel.recv, hnil] at h

theorem read_some {n : Nat} {bytes : List UInt8} (h : (read k d n).1 = some bytes) :
    bytes ≠ [] ∧ bytes.length ≤ n ∧ k.supply d = bytes ++ (read k d n).2.supply d := by
  by_cases hne : (deliver n (k.inbox d)).1 = []
  · simp [read, Kernel.recv, hne] at h
  · have hbytes : (deliver n (k.inbox d)).1 = bytes := by simpa [read, Kernel.recv, hne] using h
    subst hbytes
    refine ⟨hne, deliver_length_le _ _, ?_⟩
    simp only [read, Kernel.recv, Kernel.supply, Function.update_self]
    exact supply_deliver hne

theorem read_readsFrom (k : Kernel) (d : TDescriptor) (n : Nat) :
    k.ReadsFrom d (read k d n).2 := by
  refine ⟨fun d' hd => ?_, fun h => ?_, rfl, rfl, rfl, [_], rfl, ?_⟩
  · simp only [read, Kernel.recv]
    exact Function.update_of_ne hd _ _
  · simp only [read, Kernel.recv, Function.update_self]
    exact deliver_ne_nil_of_mem h
  · intro a ha
    rw [List.mem_singleton.mp ha]
    exact decide_eq_true rfl

theorem readLoop_readsFrom (d : TDescriptor) (fuel offset n : Nat) (k : Kernel) (b : CDynBuffer) :
    k.ReadsFrom d (readLoop d fuel offset n k b).2.1 := by
  induction fuel generalizing offset n k b with
  | zero => exact .refl d k
  | succ fuel ih =>
    rw [readLoop]
    split
    · have hk := read_readsFrom k d n
      cases hread : read k d n with
      | mk bytes? k₁ =>
        rw [hread] at hk
        cases bytes? with
        | none => exact hk
        | some bytes => exact hk.trans (ih _ _ k₁ _)
    · exact .refl d k

/-- Whether or not the loop comes to its end, what can be delivered is stored. -/
theorem readLoop_buffer {fuel offset n : Nat} {b : CDynBuffer} (hfuel : n ≤ fuel)
    (hroom : offset + n ≤ b.buffer.length) :
    (readLoop d fuel offset n k b).2.2 = b.store offset ((k.supply d).take n) := by
  induction fuel generalizing offset n k b with
  | zero =>
    have h0 : n = 0 := by omega
    subst h0
    rw [readLoop, List.take_zero, CDynBuffer.store_nil]
  | succ fuel ih =>
    rw [readLoop]
    by_cases hpos : 0 < n
    · rw [if_pos hpos]
      cases hread : (read k d n).1 with
      | none =>
        rw [show read k d n = (none, (read k d n).2) from Prod.ext hread rfl, read_none hpos hread,
          List.take_nil, CDynBuffer.store_nil]
      | some bytes =>
        obtain ⟨hne, hle, hsupply⟩ := read_some hread
        have hbytes : 0 < bytes.length := List.length_pos_iff.mpr hne
        rw [show read k d n = (some bytes, (read k d n).2) from Prod.ext hread rfl]
        generalize (read k d n).2 = k₁ at hsupply ⊢
        have hroom' : offset + bytes.length + (n - bytes.length) ≤
            (b.store offset bytes).buffer.length := by
          rw [CDynBuffer.store_length (by omega)]
          omega
        dsimp only
        rw [ih (by omega) hroom', CDynBuffer.store_store (by omega), hsupply, List.take_append,
          List.take_of_length_le hle]
    · have h0 : n = 0 := by omega
      subst h0
      rw [if_neg hpos, List.take_zero, CDynBuffer.store_nil]

/-- The loop brings exactly the bytes it was asked for when they can be delivered. -/
theorem readLoop_of_le {fuel offset n : Nat} {b : CDynBuffer} (hfuel : n ≤ fuel)
    (hn : n ≤ (k.supply d).length) :
    (readLoop d fuel offset n k b).1 = true ∧
      (readLoop d fuel offset n k b).2.1.supply d = (k.supply d).drop n := by
  induction fuel generalizing offset n k b with
  | zero =>
    have h0 : n = 0 := by omega
    subst h0
    exact ⟨rfl, rfl⟩
  | succ fuel ih =>
    rw [readLoop]
    by_cases hpos : 0 < n
    · rw [if_pos hpos]
      cases hread : (read k d n).1 with
      | none =>
        have hnil := read_none hpos hread
        rw [hnil, List.length_nil] at hn
        omega
      | some bytes =>
        obtain ⟨hne, hle, hsupply⟩ := read_some hread
        have hbytes : 0 < bytes.length := List.length_pos_iff.mpr hne
        rw [show read k d n = (some bytes, (read k d n).2) from Prod.ext hread rfl]
        generalize (read k d n).2 = k₁ at hsupply ⊢
        have hlen : (k.supply d).length = bytes.length + (k₁.supply d).length := by
          rw [hsupply, List.length_append]
        have hn' : n - bytes.length ≤ (k₁.supply d).length := by omega
        obtain ⟨hdone, hrest⟩ := @ih k₁ _ _ (b.store offset bytes) (by omega) hn'
        refine ⟨hdone, hrest.trans ?_⟩
        rw [hsupply, List.drop_append, List.drop_eq_nil_of_le hle, List.nil_append]
    · have h0 : n = 0 := by omega
      subst h0
      rw [if_neg hpos]
      exact ⟨rfl, rfl⟩

theorem readLoop_of_lt {fuel offset n : Nat} {b : CDynBuffer} (hfuel : n ≤ fuel)
    (hn : (k.supply d).length < n) : (readLoop d fuel offset n k b).1 = false := by
  induction fuel generalizing offset n k b with
  | zero => omega
  | succ fuel ih =>
    rw [readLoop, if_pos (by omega : 0 < n)]
    cases hread : (read k d n).1 with
    | none => rw [show read k d n = (none, (read k d n).2) from Prod.ext hread rfl]
    | some bytes =>
      obtain ⟨hne, hle, hsupply⟩ := read_some hread
      have hbytes : 0 < bytes.length := List.length_pos_iff.mpr hne
      rw [show read k d n = (some bytes, (read k d n).2) from Prod.ext hread rfl]
      generalize (read k d n).2 = k₁ at hsupply ⊢
      have hlen : (k.supply d).length = bytes.length + (k₁.supply d).length := by
        rw [hsupply, List.length_append]
      have hn' : (k₁.supply d).length < n - bytes.length := by omega
      exact ih (by omega) hn'

section ReadEqualSize

variable {b : CDynBuffer} {already : Nat} {sizeToRead : Int}

theorem readEqualSize_readsFrom (k : Kernel) (d : TDescriptor) (b : CDynBuffer) (already : Nat)
    (sizeToRead : Int) : k.ReadsFrom d (readEqualSize k d b already sizeToRead).2.1 := by
  have hloop := readLoop_readsFrom d (sizeToRead - already).toNat already
    (sizeToRead - already).toNat k (b.neededSize k.heap sizeToRead (already ≠ 0))
  simp only [readEqualSize]
  split <;> rename_i heq
  all_goals
    rw [heq] at hloop
    exact hloop

/-- What can be delivered is stored, behind the bytes that are there already. -/
theorem readEqualSize_buffer (halready : already ≤ b.buffer.length) :
    (readEqualSize k d b already sizeToRead).2.2 =
      (b.neededSize k.heap sizeToRead (already ≠ 0)).store already
        ((k.supply d).take (sizeToRead - already).toNat) := by
  have hlen := CDynBuffer.neededSize_length k.heap b sizeToRead (already ≠ 0)
  have hgrow := CDynBuffer.neededSize_grows k.heap b sizeToRead (already ≠ 0)
  have hloop := @readLoop_buffer k d _ already _ (b.neededSize k.heap sizeToRead (already ≠ 0))
    (Nat.le_refl (sizeToRead - already).toNat) (by omega)
  simp only [readEqualSize]
  split <;> rename_i heq
  all_goals
    rw [heq] at hloop
    exact hloop

theorem readEqualSize_of_le (halready : already ≤ b.buffer.length)
    (hn : (sizeToRead - already).toNat ≤ (k.supply d).length) :
    ∃ k', readEqualSize k d b already sizeToRead =
        (sizeToRead, k', (b.neededSize k.heap sizeToRead (already ≠ 0)).store already
          ((k.supply d).take (sizeToRead - already).toNat)) ∧
      k'.supply d = (k.supply d).drop (sizeToRead - already).toNat := by
  obtain ⟨hdone, hrest⟩ := @readLoop_of_le k d _ already _
    (b.neededSize k.heap sizeToRead (already ≠ 0)) (Nat.le_refl _) hn
  have hbuffer := @readEqualSize_buffer k d b already sizeToRead halready
  simp only [readEqualSize] at hbuffer ⊢
  split <;> rename_i heq
  all_goals rw [heq] at hdone hrest
  · rw [heq] at hbuffer
    exact ⟨_, by rw [← hbuffer], hrest⟩
  · cases hdone

theorem readEqualSize_of_lt (hn : (k.supply d).length < (sizeToRead - already).toNat) :
    (readEqualSize k d b already sizeToRead).1 = socketError := by
  have hloop := @readLoop_of_lt k d _ already _
    (b.neededSize k.heap sizeToRead (already ≠ 0)) (Nat.le_refl _) hn
  simp only [readEqualSize]
  split <;> rename_i heq
  · rw [heq] at hloop
    cases hloop
  · rfl

end ReadEqualSize

end CSocket

/-! ## Sending -/

/-- Between two states of the kernel only writes were made. -/
structure Kernel.Writes (k k' : Kernel) (acts : List Act) : Prop where
  inbox : k'.inbox = k.inbox
  heap : k'.heap = k.heap
  log : k'.log = k.log ++ acts

theorem Kernel.Writes.refl (k : Kernel) : k.Writes k [] where
  inbox := rfl
  heap := rfl
  log := (List.append_nil _).symm

theorem Kernel.Writes.trans {k k' k'' : Kernel} {acts acts' : List Act} (h : k.Writes k' acts)
    (h' : k'.Writes k'' acts') : k.Writes k'' (acts ++ acts') where
  inbox := h'.inbox.trans h.inbox
  heap := h'.heap.trans h.heap
  log := by rw [h'.log, h.log, List.append_assoc]

/-- The system calls of one `SendSignal`, and whether it succeeds. -/
inductive SendCases (d : TDescriptor) (power : TPower) (data : List UInt8) :
    Bool → List Act → Prop where
  | whole : SendCases d power data true
      [.send d [power.toUInt8] 1, .send d data data.length]
  | cut (n : Nat) (h : n < data.length) : SendCases d power data false
      [.send d [power.toUInt8] 1, .send d data n]
  | nothing : SendCases d power data false [.send d [power.toUInt8] 0]

theorem SendCases.isTransfer {d : TDescriptor} {power : TPower} {data : List UInt8} {sent : Bool}
    {acts : List Act} (h : SendCases d power data sent acts) : ∀ a ∈ acts, a.isTransfer := by
  cases h <;> simp [Act.isTransfer]

theorem send_writes (k : Kernel) (d : TDescriptor) (data : List UInt8) :
    k.Writes (CSocket.send k d data).2 [.send d data (k.send d data).1] where
  inbox := rfl
  heap := rfl
  log := rfl

theorem send_isSome (k : Kernel) (d : TDescriptor) (data : List UInt8) :
    (CSocket.send k d data).1 =
      if (k.send d data).1 ≠ data.length then none else some (k.send d data).1 := rfl

theorem CWifi.sendSignalWithSocket_cases (k : Kernel) (d : TDescriptor) (power : TPower)
    (data : List UInt8) :
    ∃ acts, SendCases d power data (CWifi.sendSignalWithSocket k d power data).1.isSome acts ∧
      k.Writes (CWifi.sendSignalWithSocket k d power data).2 acts := by
  have hpower := send_writes k d [power.toUInt8]
  have hpower' := send_isSome k d [power.toUInt8]
  have hle : (k.send d [power.toUInt8]).1 ≤ 1 := Nat.min_le_right _ _
  unfold CWifi.sendSignalWithSocket
  split
  · rename_i k₁ heq
    rw [heq] at hpower hpower'
    refine ⟨_, ?_, hpower⟩
    have hzero : (k.send d [power.toUInt8]).1 = 0 := by
      rw [List.length_singleton] at hpower'
      split at hpower'
      · omega
      · cases hpower'
    rw [hzero]
    exact SendCases.nothing
  · rename_i n k₁ heq
    rw [heq] at hpower hpower'
    have hone : (k.send d [power.toUInt8]).1 = 1 := by
      rw [List.length_singleton] at hpower'
      split at hpower'
      · cases hpower'
      · rename_i h
        exact Decidable.not_not.mp h
    rw [hone] at hpower
    refine ⟨_, ?_, hpower.trans (send_writes k₁ d data)⟩
    have hdata : (k₁.send d data).1 ≤ data.length := Nat.min_le_right _ _
    rw [send_isSome]
    split
    · rename_i h
      exact SendCases.cut _ (Nat.lt_of_le_of_ne hdata h)
    · rename_i h
      rw [Decidable.not_not.mp h]
      exact SendCases.whole

end Vwifi
