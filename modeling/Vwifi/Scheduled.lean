import Vwifi.Descriptors
import Vwifi.SelectSpec

/-!
# What the server watches

The nodes of the scheduler are the listening descriptors and those of the
entries, whatever joined and left the registries. That no node is added twice is
the promise of `accept`: the descriptors of the entries are open.
-/

namespace Vwifi

set_option autoImplicit false

namespace Server

/-- The descriptors the main loop has to wait for. -/
def watched (s : Server) : List TDescriptor :=
  s.listeners ++
    (s.wifiServer.infoSockets ++ s.wifiServerSPY.infoSockets).map CInfoSocket.descriptor

/-- The vector of nodes, the descriptor set and the maximum are those of the
watched descriptors. -/
structure Scheduled (s : Server) : Prop where
  nodes : s.globals.scheduler.listNodes.Perm s.watched
  nodup : s.globals.scheduler.listNodes.Nodup
  master : ∀ d, s.globals.scheduler.master d = true ↔ d ∈ s.globals.scheduler.listNodes
  reached : ∃ d ∈ s.globals.scheduler.listNodes, s.globals.scheduler.maxDescriptor = d
  maximum : ∀ d ∈ s.globals.scheduler.listNodes, (d : Int) ≤ s.globals.scheduler.maxDescriptor

/-- The scheduler watches what it has to, and still does after whatever can
change a registry: a connection, the removal of any entry, and the order that
closes all clients, which leaves the listening descriptors. -/
structure KeepsScheduled (s : Server) : Prop where
  scheduled : s.Scheduled
  accepted : ∀ (inc : Incoming) (cid : TCID) (s' : Server), s.unused inc.descriptor = true →
    s.acceptClient inc cid = some s' ∨ s.acceptSpy inc cid = some s' → s'.Scheduled
  removed : ∀ (isSpy : Bool) (i : TIndex) (socket : TDescriptor) (p : Pass),
    (s.registry isSpy).getSocketClient i = some socket →
      (s.pass isSpy).remove isSpy i socket = some p → (s.withPass isSpy p).Scheduled
  closedAll : ∀ s', s.closeAllClient = some s' →
    s'.Scheduled ∧ s'.globals.scheduler.listNodes.Perm s.listeners

end Server

namespace Config

/-! ## The nodes of a step -/

theorem unwatch_coherent {sched : CSelect} (h : sched.Coherent) (es : List Entry) :
    (Server.unwatch sched es).Coherent := by
  induction es generalizing sched with
  | nil => exact h
  | cons e es ih => exact ih (CSelect.delNode_coherent h e.descriptor)

theorem unwatch_count (sched : CSelect) (es : List Entry) (d : TDescriptor) :
    (Server.unwatch sched es).listNodes.count d = sched.listNodes.count d - holders es d := by
  induction es generalizing sched with
  | nil => rfl
  | cons e es ih =>
    have hcons : Server.unwatch sched (e :: es) =
        Server.unwatch (sched.delNode e.descriptor) es := rfl
    rw [hcons, ih, CSelect.delNode_listNodes, List.count_erase, holders_cons]
    simp only [beq_iff_eq]
    omega

/-- What a step does to the nodes: a connection that was not open joins, or the
nodes of some entries leave with them. -/
inductive Rewatch (s : Server) (v : Bool → Registry) (s' : Server) (v' : Bool → Registry) :
    Prop where
  | joined {d : TDescriptor} (hnew : s.unused d = true)
      (hsched : s'.globals.scheduler = s.globals.scheduler.addNode d)
      (hheld : ∀ d', holdersOf v' d' = holdersOf v d' + if d = d' then 1 else 0)
  | left (removed : List Entry) (dup : FdSet)
      (hsched : s'.globals.scheduler =
        { Server.unwatch s.globals.scheduler removed with dup := dup })
      (hheld : ∀ d, holdersOf v d = holdersOf v' d + holders removed d)

/-- The nodes are the listening descriptors and those of the entries. -/
structure Watches (s : Server) (v : Bool → Registry) : Prop where
  coherent : s.globals.scheduler.Coherent
  nodes : ∀ d, s.globals.scheduler.listNodes.count d = s.listeners.count d + holdersOf v d

variable {s s' : Server} {v v' : Bool → Registry}

theorem Rewatch.watches (h : Rewatch s v s' v') (hw : Watches s v)
    (hledger : Ledger v s.kernel.log) (hlisteners : s'.listeners = s.listeners) :
    Watches s' v' := by
  cases h with
  | @joined d hnew hsched hheld =>
    have hunused := of_decide_eq_true hnew
    have hclosed : opens d s.kernel.log = 0 := by
      rw [opens, unused_closed hnew, Bool.toNat_false]
    have hheld₀ : holdersOf v d = 0 := by
      have := (hledger d).2
      omega
    have hfresh : d ∉ s.globals.scheduler.listNodes := by
      rw [← List.count_eq_zero, hw.nodes, hheld₀, List.count_eq_zero.mpr hunused.1]
    constructor
    · rw [hsched]
      exact CSelect.addNode_coherent hw.coherent hfresh
    · intro d'
      have hnodes := hw.nodes d'
      have hadded : (s.globals.scheduler.addNode d).listNodes.count d' =
          s.globals.scheduler.listNodes.count d' + if d = d' then 1 else 0 := by
        rw [CSelect.addNode, List.count_append, List.count_singleton]
        simp
      rw [hsched, hadded, hlisteners, hheld]
      omega
  | left removed dup hsched hheld =>
    obtain ⟨hnodup, hmaster, hmaximum⟩ := unwatch_coherent hw.coherent removed
    constructor
    · rw [hsched]
      exact ⟨hnodup, hmaster, hmaximum⟩
    · intro d
      have hnodes := hw.nodes d
      have hheld' := hheld d
      have hcount := unwatch_count s.globals.scheduler removed d
      rw [hsched, hlisteners]
      dsimp only
      omega

theorem listeners_of_fixed (h : s'.fixed = s.fixed) : s'.listeners = s.listeners := by
  simp only [Server.fixed, Prod.mk.injEq] at h
  obtain ⟨_, hvtcp, hitcp, hspy, hctrl⟩ := h
  rw [Server.listeners, Server.listeners, hvtcp, hitcp, hspy, hctrl]

theorem withPass_globals (s : Server) (srcIsSpy : Bool) (p : Pass) :
    (s.withPass srcIsSpy p).globals = p.globals := by
  cases srcIsSpy <;> rfl

theorem withPass_listeners (s : Server) (srcIsSpy : Bool) (p : Pass) :
    (s.withPass srcIsSpy p).listeners = s.listeners := by
  cases srcIsSpy <;> rfl

theorem StepCases.rewatch {medium : Medium} {c c' : Config} {l : Label}
    (h : StepCases medium c l v c' v') : Rewatch c.server v c'.server v' := by
  cases h with
  | select r hphase hl =>
    refine Rewatch.left [] (c.server.globals.scheduler.wait r).2.dup ?_ fun d => rfl
    cases r <;> rfl
  | skip hskip hl => exact Rewatch.left [] c.server.globals.scheduler.dup rfl fun d => rfl
  | accept haccept hunused hconnect => exact Rewatch.joined hunused rfl (connect_holders hconnect)
  | order hphase hl hready hunused hreceived =>
    exact Rewatch.left _ _ hreceived.scheduler (ordered_holders hreceived.ordered)
  | visit hphase hl hentries hcases =>
    obtain ⟨removed, _, _, _, _, hheld, hsched, _⟩ := visit_leaves hentries hcases
    refine Rewatch.left removed (Server.unwatch c.server.globals.scheduler removed).dup ?_ hheld
    rw [withPass_globals]
    exact hsched

/-! ## What every state has -/

theorem Watches.scheduled (hw : Watches s v) (hv : s.Views v) : s.Scheduled := by
  have hwatched : s.watched = s.listeners ++
      ((v false).entries ++ (v true).entries).map Entry.descriptor := by
    have hwifi : s.wifiServer = (v false).server := hv false
    have hspy : s.wifiServerSPY = (v true).server := hv true
    rw [Server.watched, hwifi, hspy, Registry.server, Registry.server, ← List.map_append,
      List.map_map]
    rfl
  have hnodes : s.globals.scheduler.listNodes.Perm s.watched := by
    rw [List.perm_iff_count]
    intro d
    rw [hw.nodes, hwatched, List.count_append, List.map_append, List.count_append]
    rfl
  have hne : s.globals.scheduler.listNodes ≠ [] := by
    intro hnil
    rw [hnil, List.nil_perm, hwatched] at hnodes
    have hctrl : s.ctrl.master ∈ s.listeners := by simp [Server.listeners]
    rw [(List.append_eq_nil_iff.mp hnodes).1] at hctrl
    cases hctrl
  exact ⟨hnodes, hw.coherent.nodup, hw.coherent.master, hw.coherent.maximum_mem hne,
    fun _ => hw.coherent.le_maximum⟩

theorem removed_scheduled (hw : Watches s v) (hv : s.Views v) (hledger : Ledger v s.kernel.log)
    {isSpy : Bool} {i : TIndex} {socket : TDescriptor} {p : Pass}
    (hsocket : (s.registry isSpy).getSocketClient i = some socket)
    (hremove : (s.pass isSpy).remove isSpy i socket = some p) : (s.withPass isSpy p).Scheduled := by
  rw [hv isSpy, Registry.getSocketClient_server] at hsocket
  obtain ⟨e, hget, rfl⟩ := Option.map_eq_some_iff.mp hsocket
  obtain ⟨before, after, hentries, rfl⟩ := split_of_getElem? hget
  rw [Server.pass_eq hv, Pass.remove_eq isSpy hentries] at hremove
  cases hremove
  have hrewatch : Rewatch s v
      (s.withPass isSpy ⟨((v isSpy).retire before e after).server, (v !isSpy).server,
        { s.globals with
          kernel := Registry.release s.globals.kernel e
          scheduler := s.globals.scheduler.delNode e.descriptor }⟩)
      (Function.update (Function.update v isSpy ((v isSpy).retire before e after)) (!isSpy)
        (v !isSpy)) := by
    refine Rewatch.left [e] (s.globals.scheduler.delNode e.descriptor).dup ?_ fun d => ?_
    · rw [withPass_globals]
      rfl
    · rw [holdersOf_both v isSpy, holdersOf_pass, holders_retire hentries d]
      omega
  exact (hrewatch.watches hw hledger (withPass_listeners s isSpy _)).scheduled
    (withPass_views isSpy _ _ _)

theorem Watches.keepsScheduled (hw : Watches s v) (hv : s.Views v)
    (hledger : Ledger v s.kernel.log) : s.KeepsScheduled where
  scheduled := hw.scheduled hv
  accepted := by
    intro inc cid s' hunused haccept
    have hconnected : ∃ isSpy r, (v isSpy).connect inc.descriptor cid = some r ∧
        s' = s.connected isSpy inc r := by
      rcases haccept with haccept | haccept
      · exact ⟨false, Server.acceptClient_eq hv haccept⟩
      · exact ⟨true, Server.acceptSpy_eq hv haccept⟩
    obtain ⟨isSpy, r, hconnect, rfl⟩ := hconnected
    have hrewatch : Rewatch s v (s.connected isSpy inc r) (Function.update v isSpy r) :=
      Rewatch.joined hunused rfl (connect_holders hconnect)
    exact (hrewatch.watches hw hledger rfl).scheduled (Server.connected_views hv isSpy inc r)
  removed := fun _ _ _ _ hsocket hremove => removed_scheduled hw hv hledger hsocket hremove
  closedAll := by
    intro s' hclose
    obtain ⟨s'', heq, hserved⟩ := Server.closeAllClient_served 0 hv
    rw [hclose] at heq
    cases heq
    have hrewatch := Rewatch.left _ (Server.unwatch s.globals.scheduler
      ((v false).entries ++ (v true).entries)).dup hserved.scheduler
        (ordered_holders hserved.ordered)
    have hlisteners := listeners_of_fixed hserved.fixed
    have hscheduled := (hrewatch.watches hw hledger hlisteners).scheduled hserved.views
    refine ⟨hscheduled, ?_⟩
    have hwifi : s'.wifiServer = (v false).clear.server := hserved.views false
    have hspy : s'.wifiServerSPY = (v true).clear.server := hserved.views true
    have hnodes := hscheduled.nodes
    rw [Server.watched, hwifi, hspy, hlisteners] at hnodes
    exact hnodes.trans (List.Perm.of_eq (List.append_nil _))

theorem foldl_addNode_coherent {sched : CSelect} (h : sched.Coherent) (ds : List TDescriptor)
    (hnodup : (sched.listNodes ++ ds).Nodup) :
    (ds.foldl CSelect.addNode sched).Coherent ∧
      (ds.foldl CSelect.addNode sched).listNodes = sched.listNodes ++ ds := by
  induction ds generalizing sched with
  | nil => exact ⟨h, (List.append_nil _).symm⟩
  | cons d ds ih =>
    have hassoc : (sched.addNode d).listNodes ++ ds = sched.listNodes ++ d :: ds := by
      rw [CSelect.addNode, List.append_assoc, List.singleton_append]
    have hfresh : d ∉ sched.listNodes := fun hd =>
      (List.nodup_append.mp hnodup).2.2 d hd d List.mem_cons_self rfl
    obtain ⟨hcoherent, hnodes⟩ := ih (CSelect.addNode_coherent h hfresh) (hassoc ▸ hnodup)
    exact ⟨hcoherent, hnodes.trans hassoc⟩

theorem init_watches (setup : Setup) : Watches (init setup).server initialView := by
  obtain ⟨hcoherent, hnodes⟩ := foldl_addNode_coherent CSelect.init_coherent _ setup.distinct
  refine ⟨hcoherent, fun d => ?_⟩
  have hlisteners : (init setup).server.globals.scheduler.listNodes =
      (init setup).server.listeners := hnodes
  rw [hlisteners]
  rfl

theorem states_watches (medium : Medium) (setup : Setup) (ls : List Label) :
    Lts.States (step medium)
      (fun c => ∃ v, c.Sees v ∧ Ledger v c.server.kernel.log ∧ Watches c.server v)
      (init setup) ls := by
  refine Lts.states_of_invariant ls ?_ ⟨initialView, init_sees setup, init_ledger setup,
    init_watches setup⟩
  rintro c l c' ⟨v, hv, hledger, hw⟩ h
  obtain ⟨v', hv', hcases⟩ := step_cases hv h
  obtain ⟨_, hflow, _⟩ := step_flow hv hcases
  exact ⟨v', hv', hflow.ledger hledger,
    hcases.rewatch.watches hw hledger (listeners_of_fixed hcases.fixed)⟩

/-- In every state of a run the scheduler watches the listening descriptors and
those of the entries, and it goes on to do so. -/
theorem keeps_scheduled (medium : Medium) (setup : Setup) (ls : List Label) :
    Lts.States (step medium) (fun c => c.server.KeepsScheduled) (init setup) ls := by
  refine (states_watches medium setup ls).mono ?_
  rintro c ⟨v, hv, hledger, hw⟩
  exact hw.keepsScheduled hv.views hledger

end Config

end Vwifi
