import Vwifi.CtrlProgram
import Vwifi.StatusReply

/-!
# Orders that arrive whole and their answers

`Request.answer` is what a server that holds the registries, the loss and the scale
answers a request with. An order whose fields arrive whole is answered by just these
fields, as long as every `send` is taken whole.
-/

namespace Vwifi

set_option autoImplicit false

open LittleEndian Segmented

/-! ## What the server holds, as fields -/

namespace Held

/-- The coordinates of the first entry that has the CID, else those that are remembered. -/
def place (h : Held) (cid : TCID) : Option CCoordinate :=
  match (h.registry false).entries.find? (·.cid = cid) with
  | some e => some e.info.toCCoordinate
  | none => ((h.registry false).stored.find? (·.cid = cid)).map CInfoWifi.toCCoordinate

/-- The reply of `SendDistance`. -/
def distanceFields (h : Held) (medium : Medium) (cid1 cid2 : TCID) : List (List UInt8) :=
  match h.place cid1 with
  | none => [Server.unknownCid1]
  | some coo1 =>
    match h.place cid2 with
    | none => [Server.unknownCid2]
    | some coo2 => [image 4 0, image 8 (coo1.distanceWith medium h.scale coo2).toNat]

def spyIsConnected (h : Held) : Bool := 0 < (h.registry true).entries.length

/-- The reply of `SendShow`. -/
def showFields (h : Held) : List (List UInt8) :=
  [Server.boolByte h.canLostPackets, image 8 h.scale.toNat, Server.boolByte h.spyIsConnected]

/-- The reply of `SendStatus`, with the ports of the servers for clients. -/
def statusFields (h : Held) (ports : List TPort) : List (List UInt8) :=
  [Server.boolByte h.canLostPackets, image 8 h.scale.toNat] ++
    ports.map (fun port => image 2 port.toNat) ++
    [image 4 (h.registry false).capacity, Server.boolByte h.spyIsConnected]

end Held

/-- The ports of the VHOST server, when there is one, and of the TCP server. -/
def Server.ports (s : Server) : List TPort := (s.vtcp.toList ++ [s.itcp]).map Listener.port

def Request.answer (medium : Medium) (ports : List TPort) (h : Held) : Request →
    List (List UInt8)
  | question .torderList => Server.replyFields h.registry
  | question .torderShow => h.showFields
  | question .torderStatus => h.statusFields ports
  | distanceBetweenCid cid1 cid2 => h.distanceFields medium cid1 cid2
  | _ => []

/-! ## The fields of an order -/

namespace Ctrl

theorem image_ne_nil {width n : Nat} (h : 0 < width) : image width n ≠ [] := by
  rw [← List.length_pos_iff, image_length]
  exact h

theorem orderField_length (order : TOrder) : (orderField order).length = 4 := image_length _ _

theorem cidField_length (cid : TCID) : (cidField cid).length = 4 := image_length _ _

theorem orderOf_orderField (order : TOrder) :
    TOrder.ofCode (value (orderField order)) = order := by
  have hlt : order.code < 256 ^ 4 := by
    cases order <;> decide
  rw [orderField, value_image_of_lt hlt, TOrder.ofCode_code]

theorem cidOf_cidField (cid : TCID) : Request.cidOf (cidField cid) = cid := by
  have hlt : cid.toNat < 256 ^ 4 := cid.toNat_lt
  rw [Request.cidOf, cidField, value_image_of_lt hlt, UInt32.ofNat_toNat]

end Ctrl

namespace Server

variable {d : TDescriptor} {s s' s'' : Server} {segments : List (List UInt8)}

/-! ## What is said over a connection -/

theorem sends_append (d : TDescriptor) (xs ys : List Act) :
    sends d (xs ++ ys) = sends d xs ++ sends d ys := List.filterMap_append

theorem sends_wholeSends (d : TDescriptor) (fields : List (List UInt8)) :
    sends d (wholeSends d fields) = fields := by
  have hanswer := sends_answerActs d fields
  rw [answerActs, sends_append, sends_append] at hanswer
  exact (List.append_nil _).symm.trans hanswer

/-- Between `s` and `s'` just `fields` were sent over `d`, when every `send` was taken
whole. -/
def Tells (d : TDescriptor) (fields : List (List UInt8)) (s s' : Server) : Prop :=
  ∃ acts, s'.kernel.log = s.kernel.log ++ acts ∧
    ((∀ a ∈ acts, a.isWhole = true) → sends d acts = fields)

namespace Tells

variable {fields fields' : List (List UInt8)}

theorem append (h : Tells d fields s s') (h' : Tells d fields' s' s'') :
    Tells d (fields ++ fields') s s'' := by
  obtain ⟨acts, hlog, hsends⟩ := h
  obtain ⟨acts', hlog', hsends'⟩ := h'
  refine ⟨acts ++ acts', by rw [hlog', hlog, List.append_assoc], fun hwhole => ?_⟩
  rw [sends_append, hsends fun a ha => hwhole a (List.mem_append_left _ ha),
    hsends' fun a ha => hwhole a (List.mem_append_right _ ha)]

theorem trans (h : Tells d [] s s') (h' : Tells d [] s' s'') : Tells d [] s s'' := h.append h'

/-- Acts that are no `send` over `d` say nothing. -/
theorem silent {acts : List Act} (hlog : s'.kernel.log = s.kernel.log ++ acts)
    (h : sends d acts = []) : Tells d [] s s' := ⟨acts, hlog, fun _ => h⟩

theorem of_kernel (h : s'.kernel = s.kernel) : Tells d [] s s' :=
  @silent d s s' [] (by rw [h, List.append_nil]) rfl

theorem sends_eq (h : Tells d fields s s')
    (htaken : ∀ a ∈ s'.kernel.log.drop s.kernel.log.length, a.isWhole = true) :
    sends d (s'.kernel.log.drop s.kernel.log.length) = fields := by
  obtain ⟨acts, hlog, hsends⟩ := h
  rw [hlog, List.drop_left] at htaken ⊢
  exact hsends htaken

end Tells

theorem sendAll_tells (d : TDescriptor) (fields : List (List UInt8)) (s : Server) :
    Tells d fields s (sendAll d fields s).2 := by
  obtain ⟨acts, hlog, hall⟩ := @sendAll_acts d fields s
  refine ⟨acts, hlog, fun hwhole => ?_⟩
  rw [hall hwhole, sends_wholeSends]

/-- Nothing that an order could change has changed, and nothing was sent over `d`. -/
structure Listens (d : TDescriptor) (s s' : Server) : Prop where
  holds : ∀ h, s.Holds h → s'.Holds h
  ports : s'.ports = s.ports
  ctrlSockets : s'.ctrlSockets = s.ctrlSockets
  tells : Tells d [] s s'

theorem Listens.trans (h : Listens d s s') (h' : Listens d s' s'') : Listens d s s'' where
  holds := fun held hs => h'.holds held (h.holds held hs)
  ports := h'.ports.trans h.ports
  ctrlSockets := h'.ctrlSockets.trans h.ctrlSockets
  tells := h.tells.trans h'.tells

theorem look_listens (s : Server) (d : TDescriptor) (v : Var) (needed : Nat) :
    Listens d s (s.look v needed) :=
  ⟨fun _ hs => ⟨hs.views, hs.canLostPackets, hs.scale⟩, rfl, rfl, Tells.silent rfl rfl⟩

theorem read_listens {v : Var} {r : Option Var} (h : s.read d v = (r, s')) : Listens d s s' := by
  rw [read_eq] at h
  obtain ⟨_, rfl⟩ := Prod.mk.inj h
  exact ⟨fun _ hs => ⟨hs.views, hs.canLostPackets, hs.scale⟩, rfl, rfl, Tells.silent rfl rfl⟩

/-- A variable that arrives whole. -/
theorem read_whole {l : Local} {n : Nat} {bytes : List UInt8} (stack : Stack)
    (hn : bytes.length = n) (hpos : 0 < n) (h : arriving n (s.kernel.inbox d) = bytes) :
    ∃ s', s.read d (.uninitialised stack l n) = (some ⟨bytes, n⟩, s') ∧ Listens d s s' ∧
      s'.kernel.inbox d = remaining n (s.kernel.inbox d) := by
  have hlen := Var.uninitialised_length stack l n
  have hne : bytes ≠ [] := List.ne_nil_of_length_pos (hn ▸ hpos)
  have hfill : (Var.uninitialised stack l n).fill bytes = ⟨bytes, n⟩ := by
    rw [Var.fill, hn, List.drop_of_length_le (Nat.le_of_eq hlen), List.append_nil]
  have hread : s.read d (.uninitialised stack l n) =
      (some ⟨bytes, n⟩, s.withKernel (s.kernel.recv d n).2) := by
    rw [read_eq, hlen, h, if_neg hne, hfill]
  exact ⟨_, hread, read_listens hread, Function.update_self _ _ _⟩

theorem getOrder_whole {order : TOrder} {args : Ctrl.Fields} (stack : Stack)
    (hone : s.ctrlSockets.length = 1)
    (hwhole : ArriveWhole (Ctrl.orderField order :: args) (s.kernel.inbox d)) :
    ∃ s', s.getOrder stack d = (order, s') ∧ Listens d s s' ∧
      ArriveWhole args (s'.kernel.inbox d) := by
  obtain ⟨hfirst, hrest⟩ := hwhole
  rw [Ctrl.orderField_length] at hfirst hrest
  obtain ⟨s₁, hread, hlistens, hinbox⟩ := read_whole stack (Ctrl.orderField_length order)
    (by decide) hfirst
  refine ⟨s₁.look ⟨Ctrl.orderField order, 4⟩ 4, ?_, hlistens.trans (look_listens _ _ _ _), ?_⟩
  · rw [getOrder, if_neg (not_not.mpr hone), hread]
    dsimp only
    rw [Var.toNat, Ctrl.orderOf_orderField]
  · have hsame : (s₁.look ⟨Ctrl.orderField order, 4⟩ 4).kernel.inbox d = s₁.kernel.inbox d := rfl
    rw [hsame, hinbox]
    exact hrest

/-! ## The handlers that say nothing -/

section Silent

variable {stack : Stack}

theorem storeCoordinate_kernel {cid : TCID} {coo : CCoordinate}
    (h : s.storeCoordinate cid coo = some s') : s'.kernel = s.kernel := by
  unfold storeCoordinate at h
  split at h
  · cases h
    rfl
  split at h
  · cases h
    rfl
  split at h
  · cases h
  · obtain ⟨srv, _, rfl⟩ := Option.map_eq_some_iff.mp h
    rfl

theorem storeName_kernel (s : Server) (cid : TCID) (name : CString) :
    (s.storeName cid name).kernel = s.kernel := by
  unfold storeName
  split
  · rfl
  split
  · rfl
  split
  · rfl
  · rfl

theorem changeCoordinate_tells (h : changeCoordinate stack d s = some s') : Tells d [] s s' := by
  unfold changeCoordinate at h
  split at h
  · cases h
    exact (read_listens ‹_›).tells
  · rename_i cid s₁ heq₁
    have h₁ := read_listens heq₁
    split at h
    · cases h
      exact (h₁.trans (read_listens ‹_›)).tells
    · rename_i coo s₂ heq₂
      have h₂ := (h₁.trans (read_listens heq₂)).trans (look_listens s₂ d cid 4)
      dsimp only at h
      split at h
      · cases h
        exact h₂.tells
      · have h₃ := h₂.trans (look_listens _ d coo 12)
        exact h₃.tells.trans (Tells.of_kernel (storeCoordinate_kernel h))

theorem setName_tells (h : setName stack d s = some s') : Tells d [] s s' := by
  unfold setName at h
  split at h
  · cases h
    exact (read_listens ‹_›).tells
  · rename_i cid s₁ heq₁
    have h₁ := read_listens heq₁
    split at h
    · cases h
      exact (h₁.trans (read_listens ‹_›)).tells
    · rename_i sizeName s₂ heq₂
      have h₂ := h₁.trans (read_listens heq₂)
      split at h
      · cases h
        exact (h₂.trans (read_listens ‹_›)).tells
      · rename_i strName s₃ heq₃
        have h₃ := (h₂.trans (read_listens heq₃)).trans (look_listens s₃ d cid 4)
        dsimp only at h
        split at h
        · cases h
          exact h₃.tells
        · split at h
          · cases h
          · cases h
            have h₄ := fun needed => (h₃.trans (look_listens _ d strName needed)).tells
            exact (h₄ _).trans (Tells.of_kernel (storeName_kernel _ _ _))

theorem changePacketLoss_tells (h : changePacketLoss stack d s = some s') : Tells d [] s s' := by
  unfold changePacketLoss at h
  split at h
  · cases h
    exact (read_listens ‹_›).tells
  · rename_i value s₁ heq₁
    cases h
    have h₁ := (read_listens heq₁).trans (look_listens s₁ d value 4)
    exact h₁.tells.trans (Tells.of_kernel rfl)

theorem setScale_tells (stack : Stack) : Tells d [] s (setScale stack d s) := by
  unfold setScale
  split
  · exact (read_listens ‹_›).tells
  · rename_i newScale s₁ heq₁
    have h₁ := (read_listens heq₁).trans (look_listens s₁ d newScale 8)
    exact h₁.tells.trans (Tells.of_kernel rfl)

theorem closeAllClient_tells {h : Held} (hs : s.Holds h) (hserve : s.closeAllClient = some s') :
    Tells d [] s s' := by
  have hquiet : ∀ es, sends d (closeActs es) = [] := by
    intro es
    apply List.filterMap_eq_nil_iff.mpr
    intro a ha
    obtain ⟨e, _, rfl⟩ := List.mem_map.mp ha
    rfl
  rw [closeAllClient_eq hs.views, Option.some.injEq] at hserve
  subst hserve
  exact Tells.silent (closeAllClient_log h.registry s.globals.kernel) (hquiet _)

end Silent

/-! ## The handlers that answer -/

section Answering

variable {h : Held}

theorem Holds.sendList (hs : s.Holds h) (d : TDescriptor) :
    s.sendList d = some (sendAll d (replyFields h.registry) s).2 :=
  sendList_eq (hs.views true) (hs.views false) d

theorem Holds.spyIsConnected (hs : s.Holds h) : s.spyIsConnected = h.spyIsConnected := by
  have hviews : s.wifiServerSPY = (h.registry true).server := hs.views true
  rw [Server.spyIsConnected, hviews, Registry.server_getNumberClient]
  rfl

theorem Holds.sendShow (hs : s.Holds h) (d : TDescriptor) :
    s.sendShow d = (sendAll d h.showFields s).2 := by
  rw [Server.sendShow, sendFields_eq, hs.spyIsConnected, hs.canLostPackets, hs.scale]
  rfl

theorem Holds.statusFields (hs : s.Holds h) : s.statusFields = h.statusFields s.ports := by
  have hviews : s.wifiServer = (h.registry false).server := hs.views false
  rw [Server.statusFields, hs.spyIsConnected, hs.canLostPackets, hs.scale, hviews,
    Held.statusFields, ports]
  cases s.vtcp <;> rfl

theorem Holds.sendStatus (hs : s.Holds h) (d : TDescriptor) :
    s.sendStatus d = (sendAll d (h.statusFields s.ports) s).2 := by
  rw [← hs.statusFields]
  exact sendFields_eq d s.statusFields s

theorem Holds.findCoordinate_place (hs : s.Holds h) (cid : TCID) :
    s.findCoordinate cid = h.place cid := by
  have hwifi : s.wifiServer = (h.registry false).server := hs.views false
  simp only [Server.findCoordinate, hwifi, Registry.getReferenceOnInfoWifiByCID_server,
    CWifiServer.getReferenceOnInfoWifiDeconnectedByCID, Registry.server_stored, Held.place,
    List.find?_eq_bind_findIdx?_getElem?]
  cases hentry : (h.registry false).entries.findIdx? (·.cid = cid) with
  | some i =>
    obtain ⟨hi, _⟩ := List.findIdx?_eq_some_iff_getElem.mp hentry
    simp [Registry.getElem?_infoWifis, List.getElem?_eq_getElem hi]
  | none =>
    cases hstored : (h.registry false).stored.findIdx? (·.cid = cid) with
    | some i =>
      obtain ⟨hi, _⟩ := List.findIdx?_eq_some_iff_getElem.mp hstored
      simp [List.getElem?_eq_getElem hi]
    | none => rfl

theorem send_eq_sendAll (s : Server) (d : TDescriptor) (field : List UInt8) :
    (s.send d field).2 = (sendAll d [field] s).2 := by
  rw [sendAll]
  rcases s.send d field with ⟨_ | _, s₁⟩
  · rfl
  · rfl

theorem sendDistance_whole (hs : s.Holds h) (medium : Medium) (stack : Stack) {cid1 cid2 : TCID}
    (hwhole : ArriveWhole [Ctrl.cidField cid1, Ctrl.cidField cid2] (s.kernel.inbox d)) :
    Tells d (h.distanceFields medium cid1 cid2) s (s.sendDistance medium stack d) := by
  obtain ⟨hfirst, hsecond, _⟩ := hwhole
  rw [Ctrl.cidField_length] at hfirst hsecond
  rw [Ctrl.cidField_length] at hsecond
  have hcid : ∀ cid, Var.toCID ⟨Ctrl.cidField cid, 4⟩ = cid := Ctrl.cidOf_cidField
  obtain ⟨s₁, hread₁, h₁, hinbox₁⟩ := @read_whole d s .cid1 4 _ stack (Ctrl.cidField_length cid1)
    (by decide) hfirst
  obtain ⟨s₂, hread₂, h₂, _⟩ := @read_whole d s₁ .cid2 4 _ stack (Ctrl.cidField_length cid2)
    (by decide) (by rw [hinbox₁]; exact hsecond)
  have h₃ := (h₁.trans h₂).trans (look_listens s₂ d ⟨Ctrl.cidField cid1, 4⟩ 4)
  have hplace₁ := (h₃.holds h hs).findCoordinate_place cid1
  rw [sendDistance, hread₁]
  dsimp only
  rw [hread₂]
  dsimp only
  rw [hcid, hplace₁, Held.distanceFields]
  cases h.place cid1 with
  | none =>
    dsimp only
    rw [send_eq_sendAll]
    exact h₃.tells.append (sendAll_tells _ _ _)
  | some coo1 =>
    have h₄ := h₃.trans (look_listens _ d ⟨Ctrl.cidField cid2, 4⟩ 4)
    have hplace₂ := (h₄.holds h hs).findCoordinate_place cid2
    dsimp only
    rw [hcid, hplace₂]
    cases h.place cid2 with
    | none =>
      dsimp only
      rw [send_eq_sendAll]
      exact h₄.tells.append (sendAll_tells _ _ _)
    | some coo2 =>
      dsimp only
      rw [(h₄.holds h hs).scale, sendFields_eq]
      exact h₄.tells.append (sendAll_tells _ _ _)

end Answering

/-! ## One ReceiveOrder -/

/-- An order that arrives whole is answered by what its handler says. -/
theorem receiveOrder_tells {h : Held} {medium : Medium} {stack : Stack} {room : List Nat}
    {order : TOrder} {args fields : List (List UInt8)} (hs : s.Holds h) (hctrl : s.ctrlSockets = [])
    (hwhole : ArriveWhole (Ctrl.orderField order :: args) segments)
    (hserve : ∀ s₁ s₂ : Server, s₁.Holds h → s₁.ports = s.ports →
      ArriveWhole args (s₁.kernel.inbox d) → s₁.serve medium stack d order = some s₂ →
        Tells d fields s₁ s₂)
    (heq : s.receiveOrder medium stack ⟨d, segments, room⟩ = some s') : Tells d fields s s' := by
  obtain ⟨order', s₁, s₂, horder, hserved, rfl⟩ := receiveOrder_serve heq hs.views hctrl
  have haccept : (s.acceptCtrlClient ⟨d, segments, room⟩).Holds h :=
    ⟨hs.views, hs.canLostPackets, hs.scale⟩
  have hone : (s.acceptCtrlClient ⟨d, segments, room⟩).ctrlSockets.length = 1 := by
    rw [acceptCtrlClient, hctrl]
    rfl
  have hinbox : (s.acceptCtrlClient ⟨d, segments, room⟩).kernel.inbox d = segments :=
    Function.update_self _ _ _
  rw [← hinbox] at hwhole
  obtain ⟨s₁', horder', hlistens, hargs⟩ := getOrder_whole stack hone hwhole
  rw [horder'] at horder
  obtain ⟨rfl, rfl⟩ := Prod.mk.inj horder
  have haccepted : Tells d [] s (s.acceptCtrlClient ⟨d, segments, room⟩) :=
    @Tells.silent d _ _ [.accept d] rfl rfl
  have hsaid := hserve s₁' s₂ (hlistens.holds h haccept) hlistens.ports hargs hserved
  have hclosed : Tells d [] s₂
      { s₂.withKernel (s₂.kernel.close d) with ctrlSockets := [] } :=
    @Tells.silent d _ _ [.close d] rfl rfl
  have hall := ((haccepted.trans hlistens.tells).append hsaid).append hclosed
  rw [List.nil_append, List.append_nil] at hall
  exact hall

end Server

end Vwifi
