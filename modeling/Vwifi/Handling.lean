import Vwifi.Request

/-!
# What the handlers do with the bytes as they arrive

`handled` is the run of a handler reduced to what matters to its effect: which
bytes each `Read` brings, which variables are looked at, and what is changed.
The handlers refine it.
-/

namespace Vwifi

set_option autoImplicit false

open LittleEndian Segmented

/-- The uses of local variables in a log, with the bytes needed and received. -/
def usesOf (log : List Act) : List (Nat × Nat) :=
  log.filterMap fun
    | .use needed received => some (needed, received)
    | _ => none

theorem usesOf_append (l m : List Act) : usesOf (l ++ m) = usesOf l ++ usesOf m :=
  List.filterMap_append

def Var.fill (v : Var) (bytes : List UInt8) : Var :=
  ⟨bytes ++ v.bytes.drop bytes.length, bytes.length⟩

theorem Var.uninitialised_length (stack : Stack) (l : Local) (size : Nat) :
    (Var.uninitialised stack l size).bytes.length = size := by
  rw [Var.uninitialised, List.length_map, List.length_range]

/-- The bytes one `Read` of `n` bytes brings, none when it fails. -/
def arriving (n : Nat) (segments : List (List UInt8)) : List UInt8 := (deliver n segments).1

def remaining (n : Nat) (segments : List (List UInt8)) : List (List UInt8) := (deliver n segments).2

/-- The handler of an order, for the bytes that arrive in `segments`: its uses of
local variables and what it leaves, or nothing when it runs past an array. -/
def handled (stack : Stack) (h : Held) : TOrder → List (List UInt8) →
    Option (List (Nat × Nat) × Held)
  | .torderChangeCoordinate, segments =>
    let cid := arriving 4 segments
    let coo := arriving 12 (remaining 4 segments)
    if cid = [] ∨ coo = [] then some ([], h)
    else
      let cidRead := ((Var.uninitialised stack .cid 4).fill cid).toCID
      if cidRead < tcidGuestMin then some ([(4, cid.length)], h)
      else
        some ([(4, cid.length), (12, coo.length)],
          h.storeCoordinate cidRead
            (CCoordinate.ofBytes (Var.fill ⟨CCoordinate.zero.bytes, 0⟩ coo).bytes))
  | .torderSetName, segments =>
    let cid := arriving 4 segments
    let sizeName := arriving 4 (remaining 4 segments)
    let strName := arriving (maxSizeName + 1) (remaining 4 (remaining 4 segments))
    if cid = [] ∨ sizeName = [] ∨ strName = [] then some ([], h)
    else
      let cidRead := ((Var.uninitialised stack .cid 4).fill cid).toCID
      if cidRead < tcidGuestMin then some ([(4, cid.length)], h)
      else
        let buffer := ((Var.uninitialised stack .strName (maxSizeName + 1)).fill strName).bytes
        let name := CString.ofBuffer buffer
        if name.bytes.length = buffer.length then none
        else
          some ([(4, cid.length), (name.bytes.length + 1, strName.length)],
            h.storeName cidRead name)
  | .torderPacketLoss, segments =>
    let v := arriving 4 segments
    if v = [] then some ([], h)
    else
      some ([(4, v.length)],
        { h with canLostPackets := ((Var.uninitialised stack .value 4).fill v).toNat ≠ 0 })
  | .torderSetScale, segments =>
    let newScale := arriving 8 segments
    if newScale = [] then some ([], h)
    else
      some ([(8, newScale.length)],
        { h with
          scale := UInt64.ofNat ((Var.uninitialised stack .newScale 8).fill newScale).toNat })
  | .torderDistanceBetweenCid, segments =>
    let cid1 := arriving 4 segments
    let cid2 := arriving 4 (remaining 4 segments)
    if cid1 = [] ∨ cid2 = [] then some ([], h)
    else
      some ((4, cid1.length) ::
        (if (h.registry false).knows ((Var.uninitialised stack .cid1 4).fill cid1).toCID then
          [(4, cid2.length)]
        else []), h)
  | .torderCloseAllClient, _ => some ([], Request.closeAllClient.effect h)
  | _, _ => some ([], h)

/-- `GetOrder` and the handler. -/
def handledOrder (stack : Stack) (h : Held) (segments : List (List UInt8)) :
    Option (List (Nat × Nat) × Held) :=
  let code := arriving 4 segments
  if code = [] then some ([], h)
  else
    (handled stack h (TOrder.ofCode ((Var.uninitialised stack .order 4).fill code).toNat)
      (remaining 4 segments)).map fun r => ((4, code.length) :: r.1, r.2)

namespace Server

/-- Nothing that an order could change has changed: the server has read from `d`,
written to it and looked at variables. -/
structure Conversed (d : TDescriptor) (s s' : Server) (uses : List (Nat × Nat))
    (segments : List (List UInt8)) : Prop where
  holds : ∀ h, s.Holds h → s'.Holds h
  ctrlSockets : s'.ctrlSockets = s.ctrlSockets
  inbox : s'.kernel.inbox d = segments
  uses : usesOf s'.kernel.log = usesOf s.kernel.log ++ uses

variable {d : TDescriptor} {s s' s'' : Server} {uses uses' : List (Nat × Nat)}
  {segments segments' : List (List UInt8)}

theorem Conversed.trans (h : Conversed d s s' uses segments)
    (h' : Conversed d s' s'' uses' segments') : Conversed d s s'' (uses ++ uses') segments' where
  holds := fun held hs => h'.holds held (h.holds held hs)
  ctrlSockets := h'.ctrlSockets.trans h.ctrlSockets
  inbox := h'.inbox
  uses := by rw [h'.uses, h.uses, List.append_assoc]

theorem read_eq (s : Server) (d : TDescriptor) (v : Var) :
    s.read d v =
      (if arriving v.bytes.length (s.kernel.inbox d) = [] then none
        else some (v.fill (arriving v.bytes.length (s.kernel.inbox d))),
        s.withKernel (s.kernel.recv d v.bytes.length).2) := by
  have hread : CSocket.read s.kernel d v.bytes.length =
      (if arriving v.bytes.length (s.kernel.inbox d) = [] then none
        else some (arriving v.bytes.length (s.kernel.inbox d)),
        (s.kernel.recv d v.bytes.length).2) := rfl
  rw [read, hread]
  split <;> rename_i heq
  · obtain ⟨hnone, rfl⟩ := Prod.mk.inj heq
    split at hnone
    · rw [if_pos ‹_›]
    · cases hnone
  · obtain ⟨hsome, rfl⟩ := Prod.mk.inj heq
    split at hsome
    · cases hsome
    · cases hsome
      rw [if_neg ‹_›]
      rfl

theorem recv_conversed (s : Server) (d : TDescriptor) (n : Nat) :
    Conversed d s (s.withKernel (s.kernel.recv d n).2) [] (remaining n (s.kernel.inbox d)) where
  holds := fun _ hs => ⟨hs.views, hs.canLostPackets, hs.scale⟩
  ctrlSockets := rfl
  inbox := Function.update_self _ _ _
  uses := usesOf_append s.kernel.log _

theorem read_fails {v : Var} {n : Nat} (hn : v.bytes.length = n)
    (hinbox : s.kernel.inbox d = segments) (hnil : arriving n segments = []) :
    ∃ s', s.read d v = (none, s') ∧ Conversed d s s' [] (remaining n segments) := by
  subst hn hinbox
  refine ⟨_, ?_, recv_conversed s d _⟩
  rw [read_eq, if_pos hnil]

theorem read_brings {v : Var} {n : Nat} (hn : v.bytes.length = n)
    (hinbox : s.kernel.inbox d = segments) (hne : arriving n segments ≠ []) :
    ∃ s', s.read d v = (some (v.fill (arriving n segments)), s') ∧
      Conversed d s s' [] (remaining n segments) := by
  subst hn hinbox
  refine ⟨_, ?_, recv_conversed s d _⟩
  rw [read_eq, if_neg hne]

theorem look_conversed (s : Server) (d : TDescriptor) (v : Var) (needed : Nat) :
    Conversed d s (s.look v needed) [(needed, v.received)] (s.kernel.inbox d) where
  holds := fun _ hs => ⟨hs.views, hs.canLostPackets, hs.scale⟩
  ctrlSockets := rfl
  inbox := rfl
  uses := usesOf_append s.kernel.log _

theorem Sends.conversed (h : Sends d s s') : Conversed d s s' [] (s.kernel.inbox d) := by
  obtain ⟨acts, hlog, hacts⟩ := h.log
  have hserver := h.server
  have hinbox := h.inbox
  generalize s'.kernel = k at hserver hlog hinbox
  subst hserver
  refine ⟨fun _ hs => ⟨hs.views, hs.canLostPackets, hs.scale⟩, rfl, congrFun hinbox d, ?_⟩
  have huses : usesOf acts = [] := by
    apply List.filterMap_eq_nil_iff.mpr
    intro a ha
    obtain ⟨data, taken, rfl⟩ := hacts a ha
    rfl
  have hk : (s.withKernel k).kernel.log = s.kernel.log ++ acts := hlog
  rw [hk, usesOf_append, huses]

/-- What a handler returns, against what it was reduced to. -/
def Yields (s : Server) (result : Option Server) : Option (List (Nat × Nat) × Held) → Prop
  | none => result = none
  | some (uses, h) => ∃ s', result = some s' ∧ s'.Holds h ∧ s'.ctrlSockets = s.ctrlSockets ∧
      usesOf s'.kernel.log = usesOf s.kernel.log ++ uses

theorem Conversed.yields {h : Held} (hc : Conversed d s s' uses segments) (hs : s.Holds h) :
    Yields s (some s') (some (uses, h)) :=
  ⟨s', rfl, hc.holds h hs, hc.ctrlSockets, hc.uses⟩

variable {h : Held} {stack : Stack}

theorem changeCoordinate_yields (hs : s.Holds h) (stack : Stack)
    (hinbox : s.kernel.inbox d = segments) :
    Yields s (s.changeCoordinate stack d) (handled stack h .torderChangeCoordinate segments) := by
  rw [changeCoordinate, handled]
  by_cases hcid : arriving 4 segments = []
  · obtain ⟨s₁, heq₁, h₁⟩ := read_fails (Var.uninitialised_length stack .cid 4) hinbox hcid
    simp only [heq₁, if_pos (Or.inl hcid)]
    exact h₁.yields hs
  · obtain ⟨s₁, heq₁, h₁⟩ := read_brings (Var.uninitialised_length stack .cid 4) hinbox hcid
    simp only [heq₁]
    by_cases hcoo : arriving 12 (remaining 4 segments) = []
    · obtain ⟨s₂, heq₂, h₂⟩ :=
        read_fails (v := ⟨CCoordinate.zero.bytes, 0⟩) rfl h₁.inbox hcoo
      simp only [heq₂, if_pos (Or.inr hcoo)]
      exact (h₁.trans h₂).yields hs
    · obtain ⟨s₂, heq₂, h₂⟩ :=
        read_brings (v := ⟨CCoordinate.zero.bytes, 0⟩) rfl h₁.inbox hcoo
      simp only [heq₂, if_neg (not_or.mpr ⟨hcid, hcoo⟩)]
      have hlook := (h₁.trans h₂).trans
        (look_conversed s₂ d ((Var.uninitialised stack .cid 4).fill (arriving 4 segments)) 4)
      split
      · exact hlook.yields hs
      · rename_i hmin
        have hlook₂ := hlook.trans (look_conversed _ d
          (Var.fill ⟨CCoordinate.zero.bytes, 0⟩ (arriving 12 (remaining 4 segments))) 12)
        obtain ⟨s', heq, hholds, hctrl, hkernel⟩ :=
          (hlook₂.holds h hs).storeCoordinate hmin (CCoordinate.ofBytes _)
        refine ⟨s', heq, hholds, hctrl.trans hlook₂.ctrlSockets, ?_⟩
        rw [hkernel]
        exact hlook₂.uses

theorem setName_yields (hs : s.Holds h) (stack : Stack) (hinbox : s.kernel.inbox d = segments) :
    Yields s (s.setName stack d) (handled stack h .torderSetName segments) := by
  rw [setName, handled]
  by_cases hcid : arriving 4 segments = []
  · obtain ⟨s₁, heq₁, h₁⟩ := read_fails (Var.uninitialised_length stack .cid 4) hinbox hcid
    simp only [heq₁, if_pos (Or.inl hcid)]
    exact h₁.yields hs
  · obtain ⟨s₁, heq₁, h₁⟩ := read_brings (Var.uninitialised_length stack .cid 4) hinbox hcid
    simp only [heq₁]
    by_cases hsize : arriving 4 (remaining 4 segments) = []
    · obtain ⟨s₂, heq₂, h₂⟩ :=
        read_fails (Var.uninitialised_length stack .sizeName 4) h₁.inbox hsize
      simp only [heq₂, if_pos (Or.inr (Or.inl hsize))]
      exact (h₁.trans h₂).yields hs
    · obtain ⟨s₂, heq₂, h₂⟩ :=
        read_brings (Var.uninitialised_length stack .sizeName 4) h₁.inbox hsize
      simp only [heq₂]
      have h₁₂ := h₁.trans h₂
      by_cases hname : arriving (maxSizeName + 1) (remaining 4 (remaining 4 segments)) = []
      · obtain ⟨s₃, heq₃, h₃⟩ :=
          read_fails (Var.uninitialised_length stack .strName (maxSizeName + 1)) h₁₂.inbox hname
        simp only [heq₃, if_pos (Or.inr (Or.inr hname))]
        exact (h₁₂.trans h₃).yields hs
      · obtain ⟨s₃, heq₃, h₃⟩ :=
          read_brings (Var.uninitialised_length stack .strName (maxSizeName + 1)) h₁₂.inbox hname
        have hall := not_or.mpr ⟨hcid, not_or.mpr ⟨hsize, hname⟩⟩
        simp only [heq₃, if_neg hall]
        have hlook := (h₁₂.trans h₃).trans
          (look_conversed s₃ d ((Var.uninitialised stack .cid 4).fill (arriving 4 segments)) 4)
        split
        · exact hlook.yields hs
        · split
          · rfl
          · have hlook₂ := fun needed => hlook.trans (look_conversed _ d
              ((Var.uninitialised stack .strName (maxSizeName + 1)).fill
                (arriving (maxSizeName + 1) (remaining 4 (remaining 4 segments)))) needed)
            obtain ⟨hholds, hctrl, hkernel⟩ := ((hlook₂ _).holds h hs).storeName _ _
            refine ⟨_, rfl, hholds, hctrl.trans (hlook₂ _).ctrlSockets, ?_⟩
            rw [hkernel]
            exact (hlook₂ _).uses

theorem changePacketLoss_yields (hs : s.Holds h) (stack : Stack)
    (hinbox : s.kernel.inbox d = segments) :
    Yields s (s.changePacketLoss stack d) (handled stack h .torderPacketLoss segments) := by
  rw [changePacketLoss, handled]
  by_cases hvalue : arriving 4 segments = []
  · obtain ⟨s₁, heq₁, h₁⟩ := read_fails (Var.uninitialised_length stack .value 4) hinbox hvalue
    simp only [heq₁, if_pos hvalue]
    exact h₁.yields hs
  · obtain ⟨s₁, heq₁, h₁⟩ := read_brings (Var.uninitialised_length stack .value 4) hinbox hvalue
    simp only [heq₁, if_neg hvalue]
    have hlook := h₁.trans
      (look_conversed s₁ d ((Var.uninitialised stack .value 4).fill (arriving 4 segments)) 4)
    have hholds := hlook.holds h hs
    exact ⟨_, rfl, ⟨hholds.views, rfl, hholds.scale⟩, hlook.ctrlSockets, hlook.uses⟩

theorem setScale_yields (hs : s.Holds h) (stack : Stack) (hinbox : s.kernel.inbox d = segments) :
    Yields s (some (s.setScale stack d)) (handled stack h .torderSetScale segments) := by
  rw [setScale, handled]
  by_cases hscale : arriving 8 segments = []
  · obtain ⟨s₁, heq₁, h₁⟩ := read_fails (Var.uninitialised_length stack .newScale 8) hinbox hscale
    simp only [heq₁, if_pos hscale]
    exact h₁.yields hs
  · obtain ⟨s₁, heq₁, h₁⟩ := read_brings (Var.uninitialised_length stack .newScale 8) hinbox hscale
    simp only [heq₁, if_neg hscale]
    have hlook := h₁.trans
      (look_conversed s₁ d ((Var.uninitialised stack .newScale 8).fill (arriving 8 segments)) 8)
    have hholds := hlook.holds h hs
    exact ⟨_, rfl, ⟨hholds.views, hholds.canLostPackets, rfl⟩, hlook.ctrlSockets, hlook.uses⟩

theorem sendFields_conversed (d : TDescriptor) (fields : List (List UInt8)) (s : Server) :
    Conversed d s (sendFields d fields s) [] (s.kernel.inbox d) := by
  rw [sendFields_eq]
  exact (sendAll_sends d fields s).conversed

theorem sendDistance_yields (hs : s.Holds h) (medium : Medium) (stack : Stack)
    (hinbox : s.kernel.inbox d = segments) :
    Yields s (some (s.sendDistance medium stack d))
      (handled stack h .torderDistanceBetweenCid segments) := by
  rw [sendDistance, handled]
  by_cases hcid1 : arriving 4 segments = []
  · obtain ⟨s₁, heq₁, h₁⟩ := read_fails (Var.uninitialised_length stack .cid1 4) hinbox hcid1
    simp only [heq₁, if_pos (Or.inl hcid1)]
    exact h₁.yields hs
  · obtain ⟨s₁, heq₁, h₁⟩ := read_brings (Var.uninitialised_length stack .cid1 4) hinbox hcid1
    simp only [heq₁]
    by_cases hcid2 : arriving 4 (remaining 4 segments) = []
    · obtain ⟨s₂, heq₂, h₂⟩ := read_fails (Var.uninitialised_length stack .cid2 4) h₁.inbox hcid2
      simp only [heq₂, if_pos (Or.inr hcid2)]
      exact (h₁.trans h₂).yields hs
    · obtain ⟨s₂, heq₂, h₂⟩ := read_brings (Var.uninitialised_length stack .cid2 4) h₁.inbox hcid2
      simp only [heq₂, if_neg (not_or.mpr ⟨hcid1, hcid2⟩)]
      have hlook := (h₁.trans h₂).trans
        (look_conversed s₂ d ((Var.uninitialised stack .cid1 4).fill (arriving 4 segments)) 4)
      have hknows := (hlook.holds h hs).findCoordinate
        ((Var.uninitialised stack .cid1 4).fill (arriving 4 segments)).toCID
      rw [← hknows]
      split
      · rename_i hnone
        rw [hnone]
        exact (hlook.trans (send_sends _ d unknownCid1).conversed).yields hs
      · rename_i coo1 hsome
        rw [hsome]
        have hlook₂ := hlook.trans (look_conversed _ d
          ((Var.uninitialised stack .cid2 4).fill (arriving 4 (remaining 4 segments))) 4)
        split
        · exact (hlook₂.trans (send_sends _ d unknownCid2).conversed).yields hs
        · exact (hlook₂.trans (sendFields_conversed d _ _)).yields hs

theorem usesOf_closeActs (es : List Entry) : usesOf (closeActs es) = [] := by
  rw [closeActs, usesOf, List.filterMap_map]
  apply List.filterMap_eq_nil_iff.mpr
  intro e _
  rfl

theorem closeAllClient_yields (hs : s.Holds h) (stack : Stack) :
    Yields s s.closeAllClient (handled stack h .torderCloseAllClient segments) := by
  refine ⟨_, closeAllClient_eq hs.views, ⟨?_, hs.canLostPackets, hs.scale⟩, rfl, ?_⟩
  · intro b
    cases b <;> rfl
  · have hlog := closeAllClient_log h.registry s.globals.kernel
    rw [kernel, kernel, hlog, usesOf_append, usesOf_closeActs]

theorem serve_yields (hs : s.Holds h) (medium : Medium) (stack : Stack)
    (hinbox : s.kernel.inbox d = segments) (order : TOrder) :
    Yields s (s.serve medium stack d order) (handled stack h order segments) := by
  cases order with
  | torderNo => exact ⟨s, rfl, hs, rfl, (List.append_nil _).symm⟩
  | torderList =>
    rw [serve, sendList_eq (hs.views true) (hs.views false)]
    exact (sendAll_sends d _ s).conversed.yields hs
  | torderShow => exact (sendFields_conversed d _ s).yields hs
  | torderChangeCoordinate => exact changeCoordinate_yields hs stack hinbox
  | torderSetName => exact setName_yields hs stack hinbox
  | torderPacketLoss => exact changePacketLoss_yields hs stack hinbox
  | torderStatus => exact (sendFields_conversed d _ s).yields hs
  | torderDistanceBetweenCid => exact sendDistance_yields hs medium stack hinbox
  | torderSetScale => exact setScale_yields hs stack hinbox
  | torderCloseAllClient => exact closeAllClient_yields hs stack

/-- `ReceiveOrder` refines `handledOrder`. -/
theorem receiveOrder_yields (hs : s.Holds h) (hctrl : s.ctrlSockets = []) (medium : Medium)
    (stack : Stack) (c : Incoming) :
    Yields s (s.receiveOrder medium stack c) (handledOrder stack h c.inbox) := by
  have hs₀ : (s.acceptCtrlClient c).Holds h := ⟨hs.views, hs.canLostPackets, hs.scale⟩
  have hone : (s.acceptCtrlClient c).ctrlSockets = [⟨c.descriptor, true⟩] := by
    rw [acceptCtrlClient, hctrl]
    rfl
  have hinbox : (s.acceptCtrlClient c).kernel.inbox c.descriptor = c.inbox :=
    Function.update_self _ _ _
  have huses : usesOf (s.acceptCtrlClient c).kernel.log = usesOf s.kernel.log :=
    (usesOf_append _ _).trans (List.append_nil _)
  have hclose : ∀ (t : Server) (h' : Held) (uses : List (Nat × Nat)), t.Holds h' →
      t.ctrlSockets = (s.acceptCtrlClient c).ctrlSockets →
      usesOf t.kernel.log = usesOf (s.acceptCtrlClient c).kernel.log ++ uses →
      Yields s t.closeCtrlClient (some (uses, h')) := by
    intro t h' uses ht htctrl htuses
    rw [hone] at htctrl
    refine ⟨{ t.withKernel (t.kernel.close c.descriptor) with ctrlSockets := [] }, ?_,
      ⟨ht.views, ht.canLostPackets, ht.scale⟩, hctrl.symm, ?_⟩
    · rw [closeCtrlClient, htctrl]
      rfl
    · rw [← huses, ← htuses]
      exact (usesOf_append _ _).trans (List.append_nil _)
  have hlen : ¬ (s.acceptCtrlClient c).ctrlSockets.length ≠ 1 := by
    rw [hone]
    exact not_not.mpr rfl
  simp only [receiveOrder, getSocketCtrl_accept c hctrl, getOrder, if_neg hlen, handledOrder]
  by_cases hcode : arriving 4 c.inbox = []
  · obtain ⟨s₁, heq₁, h₁⟩ := read_fails (Var.uninitialised_length stack .order 4) hinbox hcode
    simp only [heq₁, if_pos hcode, serve]
    exact hclose s₁ h [] (h₁.holds h hs₀) h₁.ctrlSockets h₁.uses
  · obtain ⟨s₁, heq₁, h₁⟩ := read_brings (Var.uninitialised_length stack .order 4) hinbox hcode
    simp only [heq₁, if_neg hcode]
    have hlook := h₁.trans
      (look_conversed s₁ c.descriptor
        ((Var.uninitialised stack .order 4).fill (arriving 4 c.inbox)) 4)
    have hserve := serve_yields (hlook.holds h hs₀) medium stack (d := c.descriptor) h₁.inbox
      (TOrder.ofCode ((Var.uninitialised stack .order 4).fill (arriving 4 c.inbox)).toNat)
    cases hhandled : handled stack h (TOrder.ofCode ((Var.uninitialised stack .order 4).fill
        (arriving 4 c.inbox)).toNat) (remaining 4 c.inbox) with
    | none =>
      rw [hhandled] at hserve
      have hnone : serve medium stack c.descriptor _ _ = none := hserve
      simp only [hnone]
      rfl
    | some r =>
      rw [hhandled] at hserve
      obtain ⟨s₂, heq₂, hholds, hctrl₂, huses₂⟩ := hserve
      simp only [heq₂]
      refine hclose s₂ r.2 _ hholds (hctrl₂.trans hlook.ctrlSockets) ?_
      rw [huses₂, hlook.uses, List.append_assoc]
      rfl

end Server

end Vwifi
