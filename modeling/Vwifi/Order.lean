import Vwifi.Listing
import Vwifi.SocketSpec

/-!
# What an order can do

A handler talks to the control client and then changes at most one record, or
removes all the entries. `serve_cases` says which, and what is left in the log.
-/

namespace Vwifi

set_option autoImplicit false

/-- Acts of a conversation over the connection `d`. -/
def Act.isTalk (d : TDescriptor) : Act → Bool
  | .recv d' .. => d' = d
  | .use .. => true
  | .send d' .. => d' = d
  | .accept _ => false
  | .close _ => false

theorem Act.isTalk_of_isReadOf {d : TDescriptor} {a : Act} (h : a.isReadOf d) : a.isTalk d := by
  cases a <;> simp_all [Act.isReadOf, Act.isTalk]

theorem Act.isTransfer_of_isTalk {d : TDescriptor} {a : Act} (h : a.isTalk d) : a.isTransfer := by
  cases a <;> simp_all [Act.isTalk, Act.isTransfer]

theorem sources_talk {d : TDescriptor} {acts : List Act} (h : ∀ a ∈ acts, a.isTalk d) :
    ∀ d' ∈ acts.filterMap Act.source, d' = d := by
  intro d' hd'
  obtain ⟨a, ha, hsource⟩ := List.mem_filterMap.mp hd'
  have htalk := h a ha
  cases a with
  | recv d'' asked got =>
    cases hsource
    simpa [Act.isTalk] using htalk
  | _ => cases hsource

namespace Server

/-- What no handler changes. -/
def fixed (s : Server) : Bool × Option Listener × Listener × Listener × Listener :=
  (s.hashUsesPort, s.vtcp, s.itcp, s.spy, s.ctrl)

def registry (s : Server) (isSpy : Bool) : CWifiServer :=
  if isSpy then s.wifiServerSPY else s.wifiServer

/-- Nothing but talk over `d` happened between `s` and `s'`. -/
structure Talks (d : TDescriptor) (s s' : Server) : Prop where
  fixed : s'.fixed = s.fixed
  wifiServer : s'.wifiServer = s.wifiServer
  wifiServerSPY : s'.wifiServerSPY = s.wifiServerSPY
  ctrlSockets : s'.ctrlSockets = s.ctrlSockets
  scheduler : s'.globals.scheduler = s.globals.scheduler
  log : ∃ acts, s'.kernel.log = s.kernel.log ++ acts ∧ ∀ a ∈ acts, a.isTalk d

namespace Talks

variable {d : TDescriptor} {s s' s'' : Server}

theorem refl (d : TDescriptor) (s : Server) : Talks d s s :=
  ⟨rfl, rfl, rfl, rfl, rfl, [], (List.append_nil _).symm, by simp⟩

theorem trans (h : Talks d s s') (h' : Talks d s' s'') : Talks d s s'' := by
  obtain ⟨acts, hlog, hacts⟩ := h.log
  obtain ⟨acts', hlog', hacts'⟩ := h'.log
  refine ⟨h'.fixed.trans h.fixed, h'.wifiServer.trans h.wifiServer,
    h'.wifiServerSPY.trans h.wifiServerSPY, h'.ctrlSockets.trans h.ctrlSockets,
    h'.scheduler.trans h.scheduler, acts ++ acts', ?_, ?_⟩
  · rw [hlog', hlog, List.append_assoc]
  · intro a ha
    rcases List.mem_append.mp ha with ha | ha
    · exact hacts a ha
    · exact hacts' a ha

end Talks

section Calls

variable {d : TDescriptor} {s s' : Server}

theorem read_talks {v : Var} {r : Option Var} (h : s.read d v = (r, s')) : Talks d s s' := by
  have hread := CSocket.read_readsFrom s.kernel d v.bytes.length
  have hlog : ∃ k, s' = s.withKernel k ∧ s.kernel.ReadsFrom d k := by
    unfold read at h
    split at h <;> rename_i heq <;> rw [heq] at hread
    · exact ⟨_, (congrArg Prod.snd h).symm, hread⟩
    · exact ⟨_, (congrArg Prod.snd h).symm, hread⟩
  obtain ⟨k, rfl, hk⟩ := hlog
  obtain ⟨acts, hacts, hisRead⟩ := hk.log
  exact ⟨rfl, rfl, rfl, rfl, rfl, acts, hacts, fun a ha => Act.isTalk_of_isReadOf (hisRead a ha)⟩

theorem Sends.talks (h : Sends d s s') : Talks d s s' := by
  obtain ⟨acts, hlog, hacts⟩ := h.log
  have hserver := h.server
  generalize s'.kernel = k at hserver hlog
  subst hserver
  refine ⟨rfl, rfl, rfl, rfl, rfl, acts, hlog, ?_⟩
  intro a ha
  obtain ⟨data, taken, rfl⟩ := hacts a ha
  simp [Act.isTalk]

theorem send_talks {data : List UInt8} {ok : Bool} (h : s.send d data = (ok, s')) :
    Talks d s s' := by
  have hsends := send_sends s d data
  rw [h] at hsends
  exact hsends.talks

theorem look_talks (s : Server) (d : TDescriptor) (v : Var) (needed : Nat) :
    Talks d s (s.look v needed) := by
  refine ⟨rfl, rfl, rfl, rfl, rfl, [.use needed v.received], rfl, ?_⟩
  intro a ha
  rw [List.mem_singleton.mp ha]
  rfl

end Calls

/-! ## The handlers that only answer -/

section Answers

variable {d : TDescriptor} {s s' : Server}

theorem sendFields_talks (fields : List (List UInt8)) : Talks d s (sendFields d fields s) := by
  rw [sendFields_eq]
  exact (sendAll_sends d fields s).talks

theorem sendList_talks {spies clients : Registry} (hspy : s.wifiServerSPY = spies.server)
    (hwifi : s.wifiServer = clients.server) (h : s.sendList d = some s') : Talks d s s' := by
  rw [sendList_eq hspy hwifi, Option.some.injEq] at h
  subst h
  exact (sendAll_sends d _ s).talks

theorem sendDistance_talks (medium : Medium) (stack : Stack) :
    Talks d s (sendDistance medium stack d s) := by
  unfold sendDistance
  split
  · exact read_talks ‹_›
  · rename_i cid1 s₁ heq₁
    have h₁ := read_talks heq₁
    split
    · exact h₁.trans (read_talks ‹_›)
    · rename_i cid2 s₂ heq₂
      have h₂ := (h₁.trans (read_talks heq₂)).trans (look_talks s₂ d cid1 4)
      dsimp only
      split
      · exact h₂.trans (send_talks rfl)
      · have h₃ := h₂.trans (look_talks _ d cid2 4)
        split
        · exact h₃.trans (send_talks rfl)
        · exact h₃.trans (sendFields_talks _)

theorem setScale_talks (stack : Stack) : Talks d s (setScale stack d s) := by
  unfold setScale
  split
  · exact read_talks ‹_›
  · obtain ⟨hf, hw, hspy, hctrl, hsched, hlog⟩ :=
      (read_talks ‹_›).trans (look_talks _ d _ 8)
    exact ⟨hf, hw, hspy, hctrl, hsched, hlog⟩

theorem changePacketLoss_talks {stack : Stack} (h : changePacketLoss stack d s = some s') :
    Talks d s s' := by
  unfold changePacketLoss at h
  split at h
  · cases h
    exact read_talks ‹_›
  · cases h
    obtain ⟨hf, hw, hspy, hctrl, hsched, hlog⟩ :=
      (read_talks ‹_›).trans (look_talks _ d _ 4)
    exact ⟨hf, hw, hspy, hctrl, hsched, hlog⟩

end Answers

/-! ## The handlers that change the registries -/

/-- The two registries of the server, the spies under `true`. -/
def Views (s : Server) (v : Bool → Registry) : Prop := ∀ b, s.registry b = (v b).server

theorem Talks.views {d : TDescriptor} {s s' : Server} {v : Bool → Registry} (h : Talks d s s')
    (hv : s.Views v) : s'.Views v := by
  intro b
  rw [← hv b, registry, registry, h.wifiServer, h.wifiServerSPY]

/-- What a new name makes of the registries: a spy gets it when no client has the CID. -/
def renamed (v : Bool → Registry) (cid : TCID) (name : CString) : Bool → Registry :=
  match (v false).storeName cid name with
  | some r => Function.update v false r
  | none =>
    match (v true).entries.findIdx? (·.cid = cid) with
    | some i => Function.update v true ((v true).amendEntry i (·.setName name))
    | none => v

/-- What an order makes of the registries, with the entries it removes. -/
inductive Ordered (v : Bool → Registry) : (Bool → Registry) → List Entry → Prop where
  | same : Ordered v v []
  | coordinate (w : CInfoWifi) :
      Ordered v (Function.update v false ((v false).storeCoordinate w)) []
  | name (cid : TCID) (name : CString) {r : Registry}
      (h : (v false).storeName cid name = some r) : Ordered v (Function.update v false r) []
  | spyName (cid : TCID) (name : CString) {i : Nat} (h : (v false).storeName cid name = none)
      (hspy : (v true).entries.findIdx? (·.cid = cid) = some i) :
      Ordered v (Function.update v true ((v true).amendEntry i (·.setName name))) []
  | closeAll : Ordered v (fun b => (v b).clear) ((v false).entries ++ (v true).entries)

theorem ofCoordinate_eq {cid : TCID} (h : ¬ cid < tcidGuestMin) (coo : CCoordinate) :
    ∃ w, CInfoWifi.ofCoordinate cid coo = some w ∧ w.cid = cid ∧ w.toCCoordinate = coo ∧
      w.name = CString.empty := by
  have hok : cid = 0 ∨ tcidGuestMin ≤ cid := Or.inr (UInt32.not_lt.mp h)
  rw [CInfoWifi.ofCoordinate, CInfoWifi.setCid, dif_pos hok]
  exact ⟨_, rfl, rfl, rfl, rfl⟩

section Changes

variable {d : TDescriptor} {s s' : Server} {v : Bool → Registry}

theorem views_update {r : Registry} (hv : s.Views v) :
    { s with wifiServer := r.server }.Views (Function.update v false r) := by
  intro b
  cases b with
  | false => rfl
  | true => exact hv true

theorem updateInfoWifi_server (r : Registry) (i : Nat) (f : CInfoWifi → CInfoWifi) :
    updateInfoWifi r.server i f = (r.amendEntry i f).server := Registry.server_amendEntry r i f

theorem storeCoordinate_eq (hv : s.Views v) {cid : TCID} {coo : CCoordinate} {w : CInfoWifi}
    (hw : CInfoWifi.ofCoordinate cid coo = some w) (hcid : w.cid = cid)
    (hcoo : w.toCCoordinate = coo) :
    s.storeCoordinate cid coo =
      some { s with wifiServer := ((v false).storeCoordinate w).server } := by
  subst hcid hcoo
  have hwifi : s.wifiServer = (v false).server := hv false
  rw [storeCoordinate, hwifi, Registry.getReferenceOnInfoWifiByCID_server,
    Registry.storeCoordinate]
  cases (v false).entries.findIdx? (·.cid = w.cid) with
  | some i => simp only [updateInfoWifi_server]
  | none =>
    simp only [CWifiServer.getReferenceOnInfoWifiDeconnectedByCID, Registry.server_stored]
    cases (v false).stored.findIdx? (·.cid = w.cid) with
    | some i => rfl
    | none =>
      have hpush := @Registry.addInfoWifiDeconnected_eq (v false).server w (v false).positive
      simp only [hw, hpush]
      rfl

theorem renamed_ordered (v : Bool → Registry) (cid : TCID) (name : CString) :
    Ordered v (renamed v cid name) [] := by
  unfold renamed
  split
  · exact Ordered.name cid name ‹_›
  · split
    · exact Ordered.spyName cid name ‹_› ‹_›
    · exact Ordered.same

theorem renamed_false (v : Bool → Registry) (cid : TCID) (name : CString) :
    renamed v cid name false = ((v false).storeName cid name).getD (v false) := by
  unfold renamed
  cases (v false).storeName cid name with
  | some r => rfl
  | none =>
    cases (v true).entries.findIdx? (·.cid = cid) with
    | some i => rfl
    | none => rfl

theorem storeName_eq (hv : s.Views v) (cid : TCID) (name : CString) :
    s.storeName cid name = { s with
      wifiServer := (renamed v cid name false).server
      wifiServerSPY := (renamed v cid name true).server } := by
  have hwifi : s.wifiServer = (v false).server := hv false
  have hspy : s.wifiServerSPY = (v true).server := hv true
  obtain ⟨_, _, _, _, _, wifiServer, wifiServerSPY, _, _⟩ := s
  subst hwifi hspy
  simp only [storeName, renamed, Registry.storeName, Registry.getReferenceOnInfoWifiByCID_server,
    CWifiServer.getReferenceOnInfoWifiDeconnectedByCID, Registry.server_stored]
  cases (v false).entries.findIdx? (·.cid = cid) with
  | some i =>
    simp only [updateInfoWifi_server]
    rfl
  | none =>
    cases (v false).stored.findIdx? (·.cid = cid) with
    | some i => rfl
    | none =>
      cases (v true).entries.findIdx? (·.cid = cid) with
      | some i =>
        simp only [updateInfoWifi_server]
        rfl
      | none => rfl

/-- The descriptors that closing `es` gives back. -/
def closeActs (es : List Entry) : List Act :=
  (es.filter Entry.enabled).map fun e => .close e.descriptor

theorem foldl_release_log (es : List Entry) (k : Kernel) :
    (es.foldl Registry.release k).log = k.log ++ closeActs es := by
  induction es generalizing k with
  | nil => simp [closeActs]
  | cons e es ih =>
    rw [List.foldl_cons, ih, Registry.release, closeActs, closeActs, List.filter_cons]
    split <;> simp [Kernel.close, Kernel.record]

/-- The scheduler without the nodes of the entries `es`. -/
def unwatch (sched : CSelect) (es : List Entry) : CSelect :=
  es.foldl (fun sched e => sched.delNode e.descriptor) sched

/-- What is left of the conversation and of the change it led to. -/
structure Served (d : TDescriptor) (s : Server) (v : Bool → Registry) (s' : Server)
    (v' : Bool → Registry) (closed : List Entry) : Prop where
  views : s'.Views v'
  ordered : Ordered v v' closed
  fixed : s'.fixed = s.fixed
  ctrlSockets : s'.ctrlSockets = s.ctrlSockets
  scheduler : s'.globals.scheduler = unwatch s.globals.scheduler closed
  log : ∃ acts, s'.kernel.log = s.kernel.log ++ acts ++ closeActs closed ∧ ∀ a ∈ acts, a.isTalk d

theorem Talks.served (h : Talks d s s') (hv : s.Views v) : Served d s v s' v [] where
  views := h.views hv
  ordered := Ordered.same
  fixed := h.fixed
  ctrlSockets := h.ctrlSockets
  scheduler := h.scheduler
  log := by
    obtain ⟨acts, hlog, hacts⟩ := h.log
    exact ⟨acts, by rw [hlog, closeActs, List.filter_nil, List.map_nil, List.append_nil], hacts⟩

theorem changeCoordinate_cases {stack : Stack} (h : changeCoordinate stack d s = some s') :
    Talks d s s' ∨ ∃ cid coo s₁, (s.read d (.uninitialised stack .cid 4)).1 = some cid ∧
      Talks d s s₁ ∧ ¬ cid.toCID < tcidGuestMin ∧
      s₁.storeCoordinate cid.toCID coo = some s' := by
  unfold changeCoordinate at h
  split at h
  · cases h
    exact Or.inl (read_talks ‹_›)
  · rename_i cid s₁ heq₁
    have h₁ := read_talks heq₁
    split at h
    · cases h
      exact Or.inl (h₁.trans (read_talks ‹_›))
    · rename_i coo s₂ heq₂
      have h₂ := (h₁.trans (read_talks heq₂)).trans (look_talks s₂ d cid 4)
      dsimp only at h
      split at h
      · cases h
        exact Or.inl h₂
      · rename_i hmin
        refine Or.inr ⟨cid, _, _, ?_, h₂.trans (look_talks _ d coo 12), hmin, h⟩
        rw [heq₁]

theorem setName_cases {stack : Stack} (h : setName stack d s = some s') :
    Talks d s s' ∨ ∃ cid name s₁, (s.read d (.uninitialised stack .cid 4)).1 = some cid ∧
      Talks d s s₁ ∧ ¬ cid.toCID < tcidGuestMin ∧ s₁.storeName cid.toCID name = s' := by
  unfold setName at h
  split at h
  · cases h
    exact Or.inl (read_talks ‹_›)
  · rename_i cid s₁ heq₁
    have h₁ := read_talks heq₁
    split at h
    · cases h
      exact Or.inl (h₁.trans (read_talks ‹_›))
    · rename_i sizeName s₂ heq₂
      have h₂ := h₁.trans (read_talks heq₂)
      split at h
      · cases h
        exact Or.inl (h₂.trans (read_talks ‹_›))
      · rename_i strName s₃ heq₃
        have h₃ := (h₂.trans (read_talks heq₃)).trans (look_talks s₃ d cid 4)
        dsimp only at h
        split at h
        · cases h
          exact Or.inl h₃
        · rename_i hmin
          split at h
          · cases h
          · refine Or.inr ⟨cid, _, _, ?_, h₃.trans (look_talks _ d strName _), hmin,
              Option.some.inj h⟩
            rw [heq₁]

theorem changeCoordinate_served {stack : Stack} (h : changeCoordinate stack d s = some s')
    (hv : s.Views v) : ∃ v', Served d s v s' v' [] := by
  rcases changeCoordinate_cases h with htalk | ⟨cid, coo, s₁, _, h₁, hmin, hstore⟩
  · exact ⟨v, htalk.served hv⟩
  · obtain ⟨w, hw, hcid, hcoo, _⟩ := ofCoordinate_eq hmin coo
    rw [storeCoordinate_eq (h₁.views hv) hw hcid hcoo] at hstore
    cases hstore
    obtain ⟨hviews, _, hfixed, hctrl, hsched, hlog⟩ := h₁.served hv
    exact ⟨_, views_update hviews, Ordered.coordinate w, hfixed, hctrl, hsched, hlog⟩

theorem setName_served {stack : Stack} (h : setName stack d s = some s') (hv : s.Views v) :
    ∃ v', Served d s v s' v' [] := by
  rcases setName_cases h with htalk | ⟨cid, name, s₁, _, h₁, _, hstore⟩
  · exact ⟨v, htalk.served hv⟩
  · subst hstore
    obtain ⟨_, _, hfixed, hctrl, hsched, hlog⟩ := h₁.served hv
    rw [storeName_eq (h₁.views hv)]
    refine ⟨renamed v cid.toCID name, ?_, renamed_ordered v cid.toCID name, hfixed, hctrl, hsched,
      hlog⟩
    intro b
    cases b <;> rfl

theorem delNodes_server (sched : CSelect) (r : Registry) :
    delNodes sched r.server = unwatch sched r.entries := by
  rw [delNodes, unwatch, Registry.server, List.foldl_map]
  rfl

theorem closeAllClient_eq (hv : s.Views v) :
    s.closeAllClient = some { s with
      wifiServer := (v false).clear.server
      wifiServerSPY := (v true).clear.server
      globals := { s.globals with
        scheduler := unwatch s.globals.scheduler ((v false).entries ++ (v true).entries)
        kernel := (v true).entries.foldl Registry.release
          ((v false).entries.foldl Registry.release s.globals.kernel) } } := by
  have hwifi : s.wifiServer = (v false).server := hv false
  have hspy : s.wifiServerSPY = (v true).server := hv true
  simp only [closeAllClient, hwifi, hspy, Registry.closeAllClient_server, delNodes_server]
  rw [unwatch, unwatch, unwatch, List.foldl_append]

theorem closeAllClient_log (v : Bool → Registry) (k : Kernel) :
    ((v true).entries.foldl Registry.release ((v false).entries.foldl Registry.release k)).log =
      k.log ++ closeActs ((v false).entries ++ (v true).entries) := by
  rw [foldl_release_log, foldl_release_log, closeActs, closeActs, closeActs, List.filter_append,
    List.map_append, List.append_assoc]

theorem closeAllClient_served (d : TDescriptor) (hv : s.Views v) :
    ∃ s', s.closeAllClient = some s' ∧
      Served d s v s' (fun b => (v b).clear) ((v false).entries ++ (v true).entries) := by
  refine ⟨_, closeAllClient_eq hv, ?_, Ordered.closeAll, rfl, rfl, rfl, [], ?_, by simp⟩
  · intro b
    cases b <;> rfl
  · rw [List.append_nil]
    exact closeAllClient_log v s.globals.kernel

/-- The entries an order removes. -/
def removedBy (v : Bool → Registry) (order : TOrder) : List Entry :=
  if order = .torderCloseAllClient then (v false).entries ++ (v true).entries else []

theorem serve_served {medium : Medium} {stack : Stack} {order : TOrder}
    (h : s.serve medium stack d order = some s') (hv : s.Views v) :
    ∃ v', Served d s v s' v' (removedBy v order) := by
  cases order with
  | torderNo =>
    cases h
    exact ⟨v, (Talks.refl d s).served hv⟩
  | torderList => exact ⟨v, (sendList_talks (hv true) (hv false) h).served hv⟩
  | torderShow =>
    cases h
    exact ⟨v, (sendFields_talks _).served hv⟩
  | torderChangeCoordinate => exact changeCoordinate_served h hv
  | torderSetName => exact setName_served h hv
  | torderPacketLoss => exact ⟨v, (changePacketLoss_talks h).served hv⟩
  | torderStatus =>
    cases h
    exact ⟨v, (sendFields_talks _).served hv⟩
  | torderDistanceBetweenCid =>
    cases h
    exact ⟨v, (sendDistance_talks medium stack).served hv⟩
  | torderSetScale =>
    cases h
    exact ⟨v, (setScale_talks stack).served hv⟩
  | torderCloseAllClient =>
    obtain ⟨s'', hs, hserved⟩ := closeAllClient_served d hv
    rw [serve, hs] at h
    cases h
    exact ⟨_, hserved⟩

theorem getOrder_talks {stack : Stack} {order : TOrder} (h : s.getOrder stack d = (order, s')) :
    Talks d s s' := by
  unfold getOrder at h
  split at h
  · cases h
    exact Talks.refl d _
  · split at h
    · cases h
      exact read_talks ‹_›
    · cases h
      exact (read_talks ‹_›).trans (look_talks _ d _ 4)

/-- The order `GetOrder` finds on the connection `c`. -/
def orderOf (s : Server) (stack : Stack) (c : Incoming) : TOrder :=
  ((s.acceptCtrlClient c).getOrder stack c.descriptor).1

/-- What one `ReceiveOrder` leaves behind: the connection `c` was accepted,
talked to and closed. -/
structure Received (c : Incoming) (stack : Stack) (s : Server) (v : Bool → Registry) (s' : Server)
    (v' : Bool → Registry) : Prop where
  views : s'.Views v'
  ordered : Ordered v v' (removedBy v (s.orderOf stack c))
  fixed : s'.fixed = s.fixed
  ctrlSockets : s'.ctrlSockets = []
  scheduler : s'.globals.scheduler =
    unwatch s.globals.scheduler (removedBy v (s.orderOf stack c))
  log : ∃ acts, s'.kernel.log = s.kernel.log ++ [.accept c.descriptor] ++ acts ++
      closeActs (removedBy v (s.orderOf stack c)) ++ [.close c.descriptor] ∧
    ∀ a ∈ acts, a.isTalk c.descriptor

theorem getSocketCtrl_accept (c : Incoming) (hctrl : s.ctrlSockets = []) :
    (s.acceptCtrlClient c).getSocketCtrl = some c.descriptor := by
  rw [getSocketCtrl, acceptCtrlClient, hctrl]
  rfl

/-- `ReceiveOrder` is `GetOrder`, then the handler, then the end of the connection. -/
theorem receiveOrder_serve {medium : Medium} {stack : Stack} {c : Incoming}
    (h : s.receiveOrder medium stack c = some s') (hv : s.Views v) (hctrl : s.ctrlSockets = []) :
    ∃ order s₁ s₂, (s.acceptCtrlClient c).getOrder stack c.descriptor = (order, s₁) ∧
      s₁.serve medium stack c.descriptor order = some s₂ ∧
      s' = { s₂.withKernel (s₂.kernel.close c.descriptor) with ctrlSockets := [] } := by
  simp only [receiveOrder, getSocketCtrl_accept c hctrl] at h
  cases horder : (s.acceptCtrlClient c).getOrder stack c.descriptor with
  | mk order s₁ =>
    rw [horder] at h
    dsimp only at h
    cases hserve : s₁.serve medium stack c.descriptor order with
    | none =>
      rw [hserve] at h
      cases h
    | some s₂ =>
      rw [hserve] at h
      have hv₀ : (s.acceptCtrlClient c).Views v := hv
      have htalk := getOrder_talks horder
      obtain ⟨v', hserved⟩ := serve_served hserve (htalk.views hv₀)
      have hctrl₂ : s₂.ctrlSockets = [CInfoSocket.mk c.descriptor true] := by
        rw [hserved.ctrlSockets, htalk.ctrlSockets, acceptCtrlClient, hctrl]
        rfl
      simp only [closeCtrlClient, hctrl₂, Option.some.injEq] at h
      exact ⟨order, s₁, s₂, rfl, hserve, h.symm⟩

theorem receiveOrder_received {medium : Medium} {stack : Stack} {c : Incoming}
    (h : s.receiveOrder medium stack c = some s') (hv : s.Views v) (hctrl : s.ctrlSockets = []) :
    ∃ v', Received c stack s v s' v' := by
  obtain ⟨order, s₁, s₂, horder, hserve, rfl⟩ := receiveOrder_serve h hv hctrl
  have htalk := getOrder_talks horder
  have hv₀ : (s.acceptCtrlClient c).Views v := hv
  obtain ⟨v', hserved⟩ := serve_served hserve (htalk.views hv₀)
  have horder' : s.orderOf stack c = order := congrArg Prod.fst horder
  rw [← horder'] at hserved
  obtain ⟨acts₁, hlog₁, hacts₁⟩ := htalk.log
  obtain ⟨acts₂, hlog₂, hacts₂⟩ := hserved.log
  refine ⟨v', hserved.views, hserved.ordered, hserved.fixed.trans htalk.fixed, rfl,
    hserved.scheduler.trans (by rw [htalk.scheduler]; rfl), acts₁ ++ acts₂, ?_, ?_⟩
  · have hlog : s₂.kernel.log ++ [.close c.descriptor] =
        s.kernel.log ++ [.accept c.descriptor] ++ (acts₁ ++ acts₂) ++
          closeActs (removedBy v (s.orderOf stack c)) ++ [.close c.descriptor] := by
      rw [hlog₂, hlog₁, List.append_assoc _ acts₁ acts₂]
      rfl
    exact hlog
  · intro a ha
    rcases List.mem_append.mp ha with ha | ha
    · exact hacts₁ a ha
    · exact hacts₂ a ha

end Changes

end Server

end Vwifi
