import Vwifi.Framing
import Vwifi.MainLoop
import Vwifi.Order
import Vwifi.Visit

/-!
# What a step of the main loop can do

`step_cases` is the only place where `Config.step` is unfolded. Both registries
are seen as abstract ones, the clients under `false` and the spies under `true`.
-/

namespace Vwifi

set_option autoImplicit false

namespace Server

/-- The state after the registry `isSpy` has become `r` by the connection `c`. -/
def connected (s : Server) (isSpy : Bool) (c : Incoming) (r : Registry) : Server :=
  { s with
    wifiServer := if isSpy then s.wifiServer else r.server
    wifiServerSPY := if isSpy then r.server else s.wifiServerSPY
    globals := { s.globals with
      kernel := s.kernel.accept c
      scheduler := s.globals.scheduler.addNode c.descriptor } }

theorem connected_views {s : Server} {v : Bool → Registry} (hv : s.Views v) (isSpy : Bool)
    (c : Incoming) (r : Registry) :
    (s.connected isSpy c r).Views (Function.update v isSpy r) := by
  intro b
  cases b <;> cases isSpy
  · rfl
  · exact hv false
  · exact hv true
  · rfl

theorem pass_eq {s : Server} {v : Bool → Registry} (hv : s.Views v) (srcIsSpy : Bool) :
    s.pass srcIsSpy = ⟨(v srcIsSpy).server, (v !srcIsSpy).server, s.globals⟩ := by
  have hwifi : s.wifiServer = (v false).server := hv false
  have hspy : s.wifiServerSPY = (v true).server := hv true
  cases srcIsSpy with
  | false => rw [pass, if_neg Bool.false_ne_true, hwifi, hspy, Bool.not_false]
  | true => rw [pass, if_pos rfl, hwifi, hspy, Bool.not_true]

theorem acceptClient_server {s : Server} {v : Bool → Registry} (hv : s.Views v) (c : Incoming)
    (cid : TCID) :
    s.acceptClient c cid = ((v false).connect c.descriptor cid).map (s.connected false c) := by
  have hwifi : s.wifiServer = (v false).server := hv false
  rw [acceptClient, hwifi, Registry.accept_server]
  cases hconnect : (v false).connect c.descriptor cid with
  | none => rfl
  | some r =>
    obtain ⟨w, hw⟩ := Registry.connect_shown hconnect
    simp only [Option.map_some, hw]
    rfl

theorem acceptSpy_server {s : Server} {v : Bool → Registry} (hv : s.Views v) (c : Incoming)
    (cid : TCID) :
    s.acceptSpy c cid = ((v true).connect c.descriptor cid).map (s.connected true c) := by
  have hspy : s.wifiServerSPY = (v true).server := hv true
  rw [acceptSpy, hspy, Registry.accept_server]
  cases hconnect : (v true).connect c.descriptor cid with
  | none => rfl
  | some r =>
    obtain ⟨w, hw⟩ := Registry.connect_shown hconnect
    have hreference :
        r.server.getReferenceOnInfoWifiByIndex (r.server.getNumberClient - 1) = some w := hw
    simp only [Option.map_some, hreference]
    rfl

theorem acceptClient_eq {s s' : Server} {v : Bool → Registry} (hv : s.Views v) {c : Incoming}
    {cid : TCID} (h : s.acceptClient c cid = some s') :
    ∃ r, (v false).connect c.descriptor cid = some r ∧ s' = s.connected false c r := by
  rw [acceptClient_server hv] at h
  obtain ⟨r, hconnect, heq⟩ := Option.map_eq_some_iff.mp h
  exact ⟨r, hconnect, heq.symm⟩

theorem acceptSpy_eq {s s' : Server} {v : Bool → Registry} (hv : s.Views v) {c : Incoming}
    {cid : TCID} (h : s.acceptSpy c cid = some s') :
    ∃ r, (v true).connect c.descriptor cid = some r ∧ s' = s.connected true c r := by
  rw [acceptSpy_server hv] at h
  obtain ⟨r, hconnect, heq⟩ := Option.map_eq_some_iff.mp h
  exact ⟨r, hconnect, heq.symm⟩

end Server

namespace Config

/-- The places of the loop that are left without an event. -/
inductive Skips (s : Server) : Phase → Phase → Prop where
  | vtcp : Skips s .acceptVTCP .acceptITCP
  | itcp : Skips s .acceptITCP .acceptSPY
  | spy : Skips s .acceptSPY .order
  | order : Skips s .order (.forward false 0)
  | forwarded (srcIsSpy : Bool) (i : TIndex)
      (h : (s.registry srcIsSpy).getNumberClient ≤ i) :
      Skips s (.forward srcIsSpy i) (if srcIsSpy then .wait else .forward true 0)

/-- The places where a connection is accepted, with the registry it goes to and
its CID. -/
inductive Accepts (s : Server) : Phase → Label → Phase → Bool → Incoming → TCID → Prop where
  | vtcp (c : Incoming) (svmCid : UInt32) :
      Accepts s .acceptVTCP (.connectVm c svmCid) .acceptITCP false c svmCid
  | itcp (c : Incoming) (addr : SockaddrIn) :
      Accepts s .acceptITCP (.connectIn c addr) .acceptSPY false c (s.cidOf addr)
  | spy (c : Incoming) (addr : SockaddrIn) :
      Accepts s .acceptSPY (.connectIn c addr) .order true c (s.cidOf addr)

/-- The configuration of a loop whose registries are `v`. -/
structure Sees (c : Config) (v : Bool → Registry) : Prop where
  views : c.server.Views v
  ctrlSockets : c.server.ctrlSockets = []

inductive StepCases (medium : Medium) (c : Config) (l : Label) (v : Bool → Registry) :
    Config → (Bool → Registry) → Prop where
  | select (r : CSelect.Selection) (hphase : c.phase = .wait) (hl : l = .select r) :
      StepCases medium c l v
        ⟨.acceptVTCP, { c.server with globals := { c.server.globals with
          scheduler := (c.server.globals.scheduler.wait r).2 } }⟩ v
  | skip {phase : Phase} (hskip : Skips c.server c.phase phase)
      (hl : l = .skip ∨ l = .refused) : StepCases medium c l v ⟨phase, c.server⟩ v
  | accept {phase : Phase} {isSpy : Bool} {inc : Incoming} {cid : TCID} {r : Registry}
      (haccept : Accepts c.server c.phase l phase isSpy inc cid)
      (hunused : c.server.unused inc.descriptor = true)
      (hconnect : (v isSpy).connect inc.descriptor cid = some r) :
      StepCases medium c l v ⟨phase, c.server.connected isSpy inc r⟩ (Function.update v isSpy r)
  | order {inc : Incoming} {stack : Stack} {s' : Server} {v' : Bool → Registry}
      (hphase : c.phase = .order) (hl : l = .order inc stack)
      (hready : c.server.hasAction c.server.ctrl.master = true)
      (hunused : c.server.unused inc.descriptor = true)
      (hreceived : Server.Received inc stack c.server v s' v') :
      StepCases medium c l v ⟨.forward false 0, s'⟩ v'
  | visit {srcIsSpy : Bool} {before after : List Entry} {e : Entry} {r q : Registry} {g : Globals}
      {i : TIndex} (hphase : c.phase = .forward srcIsSpy before.length) (hl : l = .skip)
      (hentries : (v srcIsSpy).entries = before ++ e :: after)
      (hcases : Pass.VisitCases medium srcIsSpy (v srcIsSpy) (v !srcIsSpy) c.server.globals before e
        after r q g i) :
      StepCases medium c l v
        ⟨.forward srcIsSpy i, c.server.withPass srcIsSpy ⟨r.server, q.server, g⟩⟩
        (Function.update (Function.update v srcIsSpy r) (!srcIsSpy) q)

theorem withPass_views {s : Server} {v : Bool → Registry} (srcIsSpy : Bool) (r q : Registry)
    (g : Globals) : (s.withPass srcIsSpy ⟨r.server, q.server, g⟩).Views
      (Function.update (Function.update v srcIsSpy r) (!srcIsSpy) q) := by
  intro b
  cases b <;> cases srcIsSpy <;> rfl

variable {medium : Medium} {c c' : Config} {l : Label} {v : Bool → Registry}

theorem forwardStep_cases {srcIsSpy : Bool} {i : TIndex} (hv : c.Sees v)
    (hphase : c.phase = .forward srcIsSpy i)
    (h : forwardStep medium c.server srcIsSpy i = some c') :
    ∃ v', c'.Sees v' ∧ StepCases medium c .skip v c' v' := by
  unfold forwardStep at h
  rw [Server.pass_eq hv.views] at h
  split at h
  · rename_i hi
    rw [Registry.server_getNumberClient] at hi
    obtain ⟨before, after, hentries, hlen⟩ := split_of_getElem? (List.getElem?_eq_getElem hi)
    obtain ⟨r, q, g, i', hvisit, hcases⟩ :=
      @Pass.visit_cases medium srcIsSpy (v srcIsSpy) (v !srcIsSpy) c.server.globals _ _ _ hentries
    rw [hlen] at hvisit
    rw [hvisit] at h
    cases h
    refine ⟨_, ⟨withPass_views srcIsSpy r q g, ?_⟩,
      StepCases.visit (by rw [hlen]; exact hphase) rfl hentries hcases⟩
    cases srcIsSpy <;> exact hv.ctrlSockets
  · rename_i hi
    cases h
    refine ⟨v, ⟨hv.views, hv.ctrlSockets⟩, StepCases.skip ?_ (Or.inl rfl)⟩
    rw [hphase]
    apply Skips.forwarded
    rw [hv.views srcIsSpy]
    exact Nat.le_of_not_lt hi

theorem step_cases (hv : c.Sees v) (h : step medium c l = some c') :
    ∃ v', c'.Sees v' ∧ StepCases medium c l v c' v' := by
  simp only [step] at h
  split at h <;> rename_i hphase
  · -- Wait
    simp only [selectStep] at h
    split at h
    · cases h
    · cases h
      exact ⟨v, ⟨hv.views, hv.ctrlSockets⟩, StepCases.select _ hphase rfl⟩
  · -- Accept of the VHOST server
    split at h
    · rename_i hif
      obtain ⟨s', hs', hnext⟩ := Option.bind_eq_some_iff.mp h
      cases hnext
      obtain ⟨r, hconnect, rfl⟩ := Server.acceptClient_eq hv.views hs'
      exact ⟨_, ⟨Server.connected_views hv.views false _ r, hv.ctrlSockets⟩,
        StepCases.accept (hphase ▸ Accepts.vtcp _ _) hif.2 hconnect⟩
    · cases h
  · split at h
    · cases h
    · cases h
      exact ⟨v, ⟨hv.views, hv.ctrlSockets⟩, StepCases.skip (hphase ▸ Skips.vtcp) (Or.inl rfl)⟩
  · -- Accept of the TCP server
    split at h
    · rename_i hif
      obtain ⟨s', hs', hnext⟩ := Option.bind_eq_some_iff.mp h
      cases hnext
      obtain ⟨r, hconnect, rfl⟩ := Server.acceptClient_eq hv.views hs'
      exact ⟨_, ⟨Server.connected_views hv.views false _ r, hv.ctrlSockets⟩,
        StepCases.accept (hphase ▸ Accepts.itcp _ _) hif.2 hconnect⟩
    · cases h
  · split at h
    · cases h
    · cases h
      exact ⟨v, ⟨hv.views, hv.ctrlSockets⟩, StepCases.skip (hphase ▸ Skips.itcp) (Or.inl rfl)⟩
  · -- Accept of the spy server
    split at h
    · rename_i hif
      obtain ⟨s', hs', hnext⟩ := Option.bind_eq_some_iff.mp h
      cases hnext
      obtain ⟨r, hconnect, rfl⟩ := Server.acceptSpy_eq hv.views hs'
      exact ⟨_, ⟨Server.connected_views hv.views true _ r, hv.ctrlSockets⟩,
        StepCases.accept (hphase ▸ Accepts.spy _ _) hif.2 hconnect⟩
    · cases h
  · split at h
    · cases h
    · cases h
      exact ⟨v, ⟨hv.views, hv.ctrlSockets⟩, StepCases.skip (hphase ▸ Skips.spy) (Or.inl rfl)⟩
  · -- ReceiveOrder
    split at h
    · rename_i hif
      obtain ⟨s', hs', hnext⟩ := Option.bind_eq_some_iff.mp h
      cases hnext
      obtain ⟨v', hreceived⟩ :=
        Server.receiveOrder_received hs' hv.views hv.ctrlSockets
      exact ⟨v', ⟨hreceived.views, hreceived.ctrlSockets⟩,
        StepCases.order hphase rfl hif.1 hif.2 hreceived⟩
    · cases h
  · split at h
    · cases h
      exact ⟨v, ⟨hv.views, hv.ctrlSockets⟩, StepCases.skip (hphase ▸ Skips.order) (Or.inr rfl)⟩
    · cases h
  · split at h
    · cases h
    · cases h
      exact ⟨v, ⟨hv.views, hv.ctrlSockets⟩, StepCases.skip (hphase ▸ Skips.order) (Or.inl rfl)⟩
  · exact forwardStep_cases hv hphase h
  · cases h

/-- The registries the server is started with. -/
def initialView (isSpy : Bool) : Registry :=
  ⟨if isSpy then 1 else wifiMaxDeconnectedClient, [], [], Registry.capacity_pos isSpy⟩

theorem init_sees (setup : Setup) : (init setup).Sees initialView where
  views := by
    intro b
    cases b <;> rfl
  ctrlSockets := rfl

theorem Sees.entries (hv : c.Sees v) : c.server.wifiServer.entries = (v false).entries := by
  have hwifi : c.server.wifiServer = (v false).server := hv.views false
  rw [hwifi, Registry.server_entries]

theorem Sees.stored (hv : c.Sees v) :
    c.server.wifiServer.infoWifisDeconnected = (v false).stored := by
  have hwifi : c.server.wifiServer = (v false).server := hv.views false
  rw [hwifi, Registry.server_stored]

theorem states_sees (medium : Medium) (setup : Setup) (ls : List Label) :
    Lts.States (step medium) (fun c => ∃ v, c.Sees v) (init setup) ls := by
  refine Lts.states_of_invariant ls ?_ ⟨initialView, init_sees setup⟩
  rintro c l c' ⟨v, hv⟩ h
  obtain ⟨v', hv', _⟩ := step_cases hv h
  exact ⟨v', hv'⟩

/-! ## What a step makes of one registry -/

theorem displace_weakened (cid : TCID) (es : List Entry) :
    List.Forall₂ Entry.Weakened es (displace cid es) := by
  induction es with
  | nil => exact List.Forall₂.nil
  | cons e es ih =>
    rw [displace]
    split
    · refine List.Forall₂.cons ⟨rfl, rfl, fun h => ?_⟩
        (List.forall₂_same.mpr fun a _ => Entry.Weakened.refl a)
      cases h
    · exact List.Forall₂.cons (Entry.Weakened.refl e) ih

/-- A connection is appended to entries that are at most disabled. -/
theorem connect_entries {r r' : Registry} {d : TDescriptor} {cid : TCID}
    (h : r.connect d cid = some r') :
    ∃ es w, r'.entries = es ++ [⟨⟨d, true⟩, w⟩] ∧ w.cid = cid ∧
      List.Forall₂ Entry.Weakened r.entries es := by
  have hsame := List.forall₂_same.mpr fun (e : Entry) (_ : e ∈ r.entries) => Entry.Weakened.refl e
  unfold Registry.connect at h
  split at h
  · rename_i w hstored
    cases h
    exact ⟨_, w, rfl, by simpa using List.find?_some hstored, hsame⟩
  · split at h
    · rename_i e hlive
      cases h
      exact ⟨_, e.info, rfl, (Entry.isLive_iff.mp (List.find?_some hlive)).2,
        displace_weakened cid r.entries⟩
    · obtain ⟨w, hw, rfl⟩ := Option.map_eq_some_iff.mp h
      exact ⟨_, w, rfl, CInfoWifi.setCid_cid hw, hsame⟩

/-- The connection a registry accepts in a step, with its CID. -/
def acceptOf (c : Config) (l : Label) : Bool → Option (Incoming × TCID)
  | false =>
    match c.phase, l with
    | .acceptVTCP, .connectVm inc svmCid => some (inc, svmCid)
    | .acceptITCP, .connectIn inc addr => some (inc, c.server.cidOf addr)
    | _, _ => none
  | true =>
    match c.phase, l with
    | .acceptSPY, .connectIn inc addr => some (inc, c.server.cidOf addr)
    | _, _ => none

/-- The change of one registry: a connection is added exactly when one is
accepted. -/
inductive Change (r : Registry) : Option (Incoming × TCID) → Registry → Prop where
  | connected {inc : Incoming} {cid : TCID} {r' : Registry}
      (h : r.connect inc.descriptor cid = some r') : Change r (some (inc, cid)) r'
  | weakened {es : List Entry} (h : List.Forall₂ Entry.Weakened r.entries es) :
      Change r none (r.withEntries es)
  | retired {before after : List Entry} {e : Entry} (h : r.entries = before ++ e :: after) :
      Change r none (r.retire before e after)
  | coordinate (w : CInfoWifi) : Change r none (r.storeCoordinate w)
  | name (cid : TCID) (name : CString) {r' : Registry} (h : r.storeName cid name = some r') :
      Change r none r'
  | entryName (i : Nat) (name : CString) : Change r none (r.amendEntry i (·.setName name))
  | cleared : Change r none r.clear

theorem Change.same (r : Registry) : Change r none r :=
  Change.weakened (List.forall₂_same.mpr fun e _ => Entry.Weakened.refl e)

theorem Accepts.acceptOf {s : Server} {phase phase' : Phase} {isSpy : Bool} {inc : Incoming}
    {cid : TCID} (h : Accepts s phase l phase' isSpy inc cid) (b : Bool) :
    Config.acceptOf ⟨phase, s⟩ l b = if b = isSpy then some (inc, cid) else none := by
  cases h <;> cases b <;> rfl

theorem ordered_change {v v' : Bool → Registry} {closed : List Entry}
    (h : Server.Ordered v v' closed) (b : Bool) : Change (v b) none (v' b) := by
  cases h with
  | same => exact Change.same _
  | coordinate w =>
    cases b with
    | false => exact Change.coordinate w
    | true => exact Change.same _
  | name cid name h =>
    cases b with
    | false => exact Change.name cid name h
    | true => exact Change.same _
  | spyName cid name h hspy =>
    cases b with
    | false => exact Change.same _
    | true => exact Change.entryName _ name
  | closeAll => exact Change.cleared

section Visits

variable {r q r' q' : Registry} {g g' : Globals} {before after : List Entry} {e : Entry}
  {srcIsSpy : Bool} {i : TIndex}

theorem visit_change (h : Pass.VisitCases medium srcIsSpy r q g before e after r' q' g' i)
    (hentries : r.entries = before ++ e :: after) : Change r none r' := by
  cases h with
  | disabled => exact Change.retired hentries
  | unreadable => exact Change.retired hentries
  | idle => exact Change.same _
  | forwarded _ _ _ hbefore hafter =>
    apply Change.weakened
    rw [hentries]
    exact List.rel_append hbefore.weakened
      (List.Forall₂.cons (Entry.Weakened.refl e) hafter.weakened)

theorem visit_change_other (h : Pass.VisitCases medium srcIsSpy r q g before e after r' q' g' i) :
    Change q none q' := by
  cases h with
  | disabled => exact Change.same _
  | unreadable => exact Change.same _
  | idle => exact Change.same _
  | forwarded _ _ _ _ _ hothers => exact Change.weakened hothers.weakened

end Visits

theorem StepCases.change {v' : Bool → Registry} (h : StepCases medium c l v c' v') (b : Bool) :
    Change (v b) (c.acceptOf l b) (v' b) := by
  cases h with
  | select r hphase hl =>
    have hnone : c.acceptOf l b = none := by
      cases b <;> simp [acceptOf, hphase, hl]
    rw [hnone]
    exact Change.same _
  | skip hskip hl =>
    have hnone : c.acceptOf l b = none := by
      rcases hl with rfl | rfl <;> cases b <;> simp [acceptOf]
    rw [hnone]
    exact Change.same _
  | @accept _ isSpy _ _ r haccept hunused hconnect =>
    rw [show c.acceptOf l b = _ from haccept.acceptOf b]
    by_cases hb : b = isSpy
    · subst hb
      rw [if_pos rfl, Function.update_self]
      exact Change.connected hconnect
    · rw [if_neg hb, Function.update_of_ne hb]
      exact Change.same _
  | order hphase hl _ _ hreceived =>
    have hnone : c.acceptOf l b = none := by
      cases b <;> simp [acceptOf, hphase, hl]
    rw [hnone]
    exact ordered_change hreceived.ordered b
  | @visit srcIsSpy _ _ _ r q _ _ hphase hl hentries hcases =>
    have hnone : c.acceptOf l b = none := by
      cases b <;> simp [acceptOf, hphase, hl]
    rw [hnone]
    by_cases hb : b = srcIsSpy
    · subst hb
      rw [Function.update_of_ne (by simp), Function.update_self]
      exact visit_change hcases hentries
    · have hb' : b = !srcIsSpy := by cases b <;> cases srcIsSpy <;> simp_all
      subst hb'
      rw [Function.update_self]
      exact visit_change_other hcases

theorem StepCases.fixed {v' : Bool → Registry} (h : StepCases medium c l v c' v') :
    c'.server.fixed = c.server.fixed := by
  cases h with
  | select => rfl
  | skip => rfl
  | accept => rfl
  | order _ _ _ _ hreceived => exact hreceived.fixed
  | @visit srcIsSpy => cases srcIsSpy <;> rfl

end Config

end Vwifi
