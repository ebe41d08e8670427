import Vwifi.Step

/-!
# The descriptors of the connections

Every descriptor `accept` returned is open until it is closed, and every entry
of a registry holds an open descriptor of its own. What may fail is the
converse: `Close` does nothing for a disabled entry, so its descriptor stays
open when the entry is removed.
-/

namespace Vwifi

set_option autoImplicit false

/-- 1 while the descriptor is open. -/
def opens (d : TDescriptor) (log : List Act) : Nat := (isOpen d log).toNat

theorem opens_accept (d d' : TDescriptor) (log : List Act) :
    opens d (log ++ [.accept d']) = if d' = d then 1 else opens d log := by
  rw [opens, isOpen_append, List.foldl_cons, List.foldl_nil, openStep]
  split <;> rfl

theorem opens_close (d d' : TDescriptor) (log : List Act) :
    opens d (log ++ [.close d']) = if d' = d then 0 else opens d log := by
  rw [opens, isOpen_append, List.foldl_cons, List.foldl_nil, openStep]
  split <;> rfl

theorem opens_transfer (d : TDescriptor) (log : List Act) {m : List Act}
    (h : ∀ a ∈ m, a.isTransfer) : opens d (log ++ m) = opens d log := by
  rw [opens, isOpen_transfer d log h, opens]

theorem accepts_accept (d d' : TDescriptor) :
    accepts d [.accept d'] = if d' = d then 1 else 0 := by
  rw [accepts, List.count_singleton]
  simp

theorem closes_accept (d d' : TDescriptor) : closes d [.accept d'] = 0 := by
  rw [closes, List.count_singleton]
  simp

theorem accepts_close (d d' : TDescriptor) : accepts d [.close d'] = 0 := by
  rw [accepts, List.count_singleton]
  simp

theorem closes_close (d d' : TDescriptor) :
    closes d [.close d'] = if d' = d then 1 else 0 := by
  rw [closes, List.count_singleton]
  simp

/-- How many entries hold a descriptor. -/
def holders (es : List Entry) (d : TDescriptor) : Nat := (es.map Entry.descriptor).count d

theorem holders_append (es fs : List Entry) (d : TDescriptor) :
    holders (es ++ fs) d = holders es d + holders fs d := by
  rw [holders, List.map_append, List.count_append]
  rfl

theorem holders_cons (e : Entry) (es : List Entry) (d : TDescriptor) :
    holders (e :: es) d = holders es d + if e.descriptor = d then 1 else 0 := by
  rw [holders, List.map_cons, List.count_cons, holders]
  simp

theorem holders_weakened {es es' : List Entry} (h : List.Forall₂ Entry.Weakened es es')
    (d : TDescriptor) : holders es' d = holders es d := by
  rw [holders, holders, map_descriptor_eq h]

theorem holders_pos {es : List Entry} {e : Entry} (h : e ∈ es) : 1 ≤ holders es e.descriptor :=
  List.count_pos_iff.mpr (List.mem_map_of_mem h)

open Server (closeActs)

theorem accepts_closeActs (d : TDescriptor) (es : List Entry) : accepts d (closeActs es) = 0 := by
  apply List.count_eq_zero.mpr
  intro hmem
  obtain ⟨e, _, he⟩ := List.mem_map.mp hmem
  cases he

theorem closes_closeActs (d : TDescriptor) (es : List Entry) :
    closes d (closeActs es) = holders (es.filter Entry.enabled) d := by
  rw [closes, closeActs, holders, List.count, List.count, List.countP_map, List.countP_map]
  apply List.countP_congr
  intro e _
  simp

theorem opens_closeActs (d : TDescriptor) (es : List Entry) (log : List Act) :
    opens d (log ++ closeActs es) =
      if holders (es.filter Entry.enabled) d = 0 then opens d log else 0 := by
  induction es generalizing log with
  | nil => simp [closeActs, holders]
  | cons e es ih =>
    rw [closeActs, List.filter_cons]
    split
    · have hcons : log ++ ((e :: es.filter Entry.enabled).map fun e => Act.close e.descriptor) =
          log ++ [.close e.descriptor] ++ closeActs es := by
        rw [List.map_cons, List.append_assoc]
        rfl
      rw [hcons, ih, opens_close, holders_cons]
      split
      · split
        · simp
        · simp [*]
      · simp [*]
    · exact ih log

theorem holders_filter_add (es : List Entry) (d : TDescriptor) :
    holders (es.filter Entry.enabled) d + holders (es.filter (! ·.enabled)) d = holders es d := by
  induction es with
  | nil => rfl
  | cons e es ih =>
    rw [List.filter_cons, List.filter_cons, holders_cons]
    cases e.enabled <;> simp only [Bool.not_true, Bool.not_false, if_true, Bool.false_eq_true,
      if_false, holders_cons] <;> omega

/-- Closing gives back every descriptor of the entries exactly when they are all enabled. -/
theorem holders_filter_eq_iff (es : List Entry) :
    (∀ d, holders (es.filter Entry.enabled) d = holders es d) ↔
      ∀ e ∈ es, e.enabled = true := by
  constructor
  · intro heq e he
    by_contra hdis
    have hmem : e ∈ es.filter (! ·.enabled) := List.mem_filter.mpr ⟨he, by simpa using hdis⟩
    have hpos := holders_pos hmem
    have hadd := holders_filter_add es e.descriptor
    rw [heq e.descriptor] at hadd
    omega
  · intro hall d
    rw [List.filter_eq_self.mpr hall]

namespace Config

/-- How many entries of both registries hold a descriptor. -/
def holdersOf (v : Bool → Registry) (d : TDescriptor) : Nat :=
  holders (v false).entries d + holders (v true).entries d

/-- What a step does to the descriptors: a connection joins, entries leave, or
a control connection comes and goes while entries leave. -/
inductive Flow (v : Bool → Registry) (log : List Act) (removed : List Entry)
    (v' : Bool → Registry) (log' : List Act) : Prop where
  | joined {d' : TDescriptor} (hlog : log' = log ++ [.accept d']) (hnew : isOpen d' log = false)
      (hnone : removed = [])
      (hheld : ∀ d, holdersOf v' d = holdersOf v d + if d' = d then 1 else 0)
  | left {m : List Act} (hlog : log' = log ++ m ++ closeActs removed)
      (hacts : ∀ a ∈ m, a.isTransfer)
      (hheld : ∀ d, holdersOf v d = holdersOf v' d + holders removed d)
  | ordered {d' : TDescriptor} {acts : List Act}
      (hlog : log' = log ++ [.accept d'] ++ acts ++ closeActs removed ++ [.close d'])
      (hnew : isOpen d' log = false) (hacts : ∀ a ∈ acts, a.isTransfer)
      (hheld : ∀ d, holdersOf v d = holdersOf v' d + holders removed d)

/-- Each descriptor was accepted once more than it was closed while it is open,
and at most one entry holds it, only then. -/
def Ledger (v : Bool → Registry) (log : List Act) : Prop :=
  ∀ d, accepts d log = closes d log + opens d log ∧ holdersOf v d ≤ opens d log

theorem opens_le_one (d : TDescriptor) (log : List Act) : opens d log ≤ 1 := Bool.toNat_le _

section Flows

variable {v v' : Bool → Registry} {log log' : List Act} {removed : List Entry}

theorem Flow.counts (h : Flow v log removed v' log') (hl : Ledger v log) (d : TDescriptor) :
    ∃ n ≤ 1, holdersOf v' d + holders removed d = holdersOf v d + n ∧
      opens d log' + holders (removed.filter Entry.enabled) d = opens d log + n ∧
      accepts d log' + closes d log + opens d log =
        accepts d log + closes d log' + opens d log' := by
  have hfilter := holders_filter_add removed d
  have hle := (hl d).2
  have hone := opens_le_one d log
  cases h with
  | @joined d' hlog hnew hnone hheld =>
    subst hnone hlog
    have hclosed : opens d' log = 0 := by rw [opens, hnew, Bool.toNat_false]
    refine ⟨if d' = d then 1 else 0, by split <;> omega, hheld d, ?_, ?_⟩
    · rw [opens_accept]
      split
      · rename_i heq
        rw [← heq, hclosed]
        rfl
      · rfl
    · rw [accepts_append, closes_append, accepts_accept, closes_accept, opens_accept]
      split
      · rename_i heq
        rw [← heq, hclosed]
        omega
      · omega
  | @left acts hlog hacts hheld =>
    subst hlog
    have hheld' := hheld d
    have hopens : opens d (log ++ acts ++ closeActs removed) +
        holders (removed.filter Entry.enabled) d = opens d log := by
      rw [opens_closeActs, opens_transfer d log hacts]
      split <;> omega
    refine ⟨0, Nat.zero_le _, by omega, by omega, ?_⟩
    rw [accepts_append, accepts_append, closes_append, closes_append, accepts_closeActs,
      closes_closeActs, accepts_transfer d hacts, closes_transfer d hacts]
    omega
  | @ordered d' acts hlog hnew hacts hheld =>
    subst hlog
    have hheld' := hheld d
    have hclosed : opens d' log = 0 := by rw [opens, hnew, Bool.toNat_false]
    have hopens : opens d (log ++ [.accept d'] ++ acts ++ closeActs removed ++ [.close d']) +
        holders (removed.filter Entry.enabled) d = opens d log := by
      rw [opens_close, opens_closeActs, opens_transfer d _ hacts, opens_accept]
      split
      · rename_i heq
        rw [← heq] at hle hheld' hfilter ⊢
        omega
      · split <;> omega
    refine ⟨0, Nat.zero_le _, by omega, by omega, ?_⟩
    rw [accepts_append, accepts_append, accepts_append, accepts_append, closes_append,
      closes_append, closes_append, closes_append, accepts_closeActs, closes_closeActs,
      accepts_transfer d hacts, closes_transfer d hacts, accepts_accept, closes_accept,
      accepts_close, closes_close]
    omega

theorem Flow.ledger (h : Flow v log removed v' log') (hl : Ledger v log) : Ledger v' log' := by
  intro d
  obtain ⟨n, _, hheld, hopens, hcounts⟩ := h.counts hl d
  obtain ⟨hbalance, hle⟩ := hl d
  have hfilter := holders_filter_add removed d
  constructor <;> omega

theorem Flow.exact_iff (h : Flow v log removed v' log') (hl : Ledger v log)
    (hexact : ∀ d, holdersOf v d = opens d log) :
    (∀ d, holdersOf v' d = opens d log') ↔ ∀ e ∈ removed, e.enabled = true := by
  rw [← holders_filter_eq_iff]
  refine forall_congr' fun d => ?_
  obtain ⟨n, _, hheld, hopens, _⟩ := h.counts hl d
  have := hexact d
  constructor <;> intro _ <;> omega

end Flows

/-! ## The flow of a step -/

theorem holders_amend (es : List Entry) (i : Nat) (f : CInfoWifi → CInfoWifi) (d : TDescriptor) :
    holders (es.modify i (Entry.amend f)) d = holders es d := by
  have hsocket : ∀ es : List Entry, es.map Entry.descriptor =
      (es.map Entry.socket).map CInfoSocket.descriptor := by
    intro es
    rw [List.map_map]
    rfl
  rw [holders, holders, hsocket, Registry.modify_socket, ← hsocket]

theorem holdersOf_update (v : Bool → Registry) (b : Bool) (r : Registry) (d : TDescriptor) :
    holdersOf (Function.update v b r) d + holders (v b).entries d =
      holdersOf v d + holders r.entries d := by
  cases b <;> simp only [holdersOf, Function.update_self, ne_eq, Bool.true_eq_false,
    Bool.false_eq_true, not_false_eq_true, Function.update_of_ne] <;> omega

theorem holdersOf_update_of_eq (v : Bool → Registry) (b : Bool) {r : Registry} (d : TDescriptor)
    (h : holders r.entries d = holders (v b).entries d) :
    holdersOf (Function.update v b r) d = holdersOf v d := by
  have := holdersOf_update v b r d
  omega

theorem storeCoordinate_holders (r : Registry) (w : CInfoWifi) (d : TDescriptor) :
    holders (r.storeCoordinate w).entries d = holders r.entries d := by
  unfold Registry.storeCoordinate
  split
  · exact holders_amend _ _ _ d
  · split <;> rfl

theorem storeName_holders {r r' : Registry} {cid : TCID} {name : CString}
    (h : r.storeName cid name = some r') (d : TDescriptor) :
    holders r'.entries d = holders r.entries d := by
  unfold Registry.storeName at h
  split at h
  · cases h
    exact holders_amend _ _ _ d
  · obtain ⟨i, _, rfl⟩ := Option.map_eq_some_iff.mp h
    rfl

theorem ordered_holders {v v' : Bool → Registry} {closed : List Entry}
    (h : Server.Ordered v v' closed) (d : TDescriptor) :
    holdersOf v d = holdersOf v' d + holders closed d := by
  cases h with
  | same => rfl
  | coordinate w =>
    rw [holdersOf_update_of_eq v false d (storeCoordinate_holders _ w d)]
    rfl
  | name cid name h =>
    rw [holdersOf_update_of_eq v false d (storeName_holders h d)]
    rfl
  | @spyName cid name i h hspy =>
    have hentries : holders ((v true).amendEntry i (·.setName name)).entries d =
        holders (v true).entries d := holders_amend _ i _ d
    rw [holdersOf_update_of_eq v true d hentries]
    rfl
  | closeAll =>
    rw [holders_append, holdersOf, holdersOf]
    simp [Registry.clear, holders]

theorem delivers_transfer {mayLose : Bool} {level : Entry → TPower} {data : List UInt8}
    {es es' : List Entry} {acts : List Act} (h : Delivers mayLose level data es acts es') :
    ∀ a ∈ acts, a.isTransfer := by
  induction h with
  | nil => simp
  | disabled _ _ ih => exact ih
  | lost _ _ _ _ ih => exact ih
  | called _ hcall _ _ ih =>
    intro a ha
    rcases List.mem_append.mp ha with ha | ha
    · exact hcall.isTransfer a ha
    · exact ih a ha

theorem delivers_sources {mayLose : Bool} {level : Entry → TPower} {data : List UInt8}
    {es es' : List Entry} {acts : List Act} (h : Delivers mayLose level data es acts es') :
    acts.filterMap Act.source = [] := by
  induction h with
  | nil => rfl
  | disabled _ _ ih => exact ih
  | lost _ _ _ _ ih => exact ih
  | called _ hcall _ _ ih =>
    rw [List.filterMap_append, ih, List.append_nil]
    cases hcall <;> rfl

/-- No disabled entry is removed by the step: neither by its turn in a pass nor
by the order that closes all clients. -/
def RemovesEnabled (c : Config) (l : Label) : Prop :=
  match c.phase, l with
  | .forward srcIsSpy i, _ =>
    ∀ e, (c.server.registry srcIsSpy).entries[i]? = some e → e.enabled = true
  | .order, .order inc stack =>
    c.server.orderOf stack inc = .torderCloseAllClient →
      ∀ e ∈ c.server.wifiServer.entries ++ c.server.wifiServerSPY.entries, e.enabled = true
  | _, _ => True

theorem holdersOf_pass (v : Bool → Registry) (b : Bool) (r q : Registry) (d : TDescriptor) :
    holdersOf (Function.update (Function.update v b r) (!b) q) d =
      holders r.entries d + holders q.entries d := by
  cases b
  · rfl
  · exact Nat.add_comm _ _

theorem holdersOf_both (v : Bool → Registry) (b : Bool) (d : TDescriptor) :
    holdersOf v d = holders (v b).entries d + holders (v !b).entries d := by
  cases b
  · rfl
  · exact Nat.add_comm _ _

theorem holders_retire {r : Registry} {before after : List Entry} {e : Entry}
    (h : r.entries = before ++ e :: after) (d : TDescriptor) :
    holders r.entries d = holders (r.retire before e after).entries d + holders [e] d := by
  have hnil : holders [] d = 0 := rfl
  rw [h, Registry.retire, holders_append, holders_append, holders_cons, holders_cons, hnil]
  omega

theorem closeActs_nil : closeActs [] = [] := rfl

variable {medium : Medium} {c c' : Config} {l : Label} {v v' : Bool → Registry}

theorem Sees.held (hv : c.Sees v) :
    c.server.wifiServer.entries ++ c.server.wifiServerSPY.entries =
      (v false).entries ++ (v true).entries := by
  have hspy : c.server.wifiServerSPY = (v true).server := hv.views true
  have hwifi : c.server.wifiServer = (v false).server := hv.views false
  rw [hspy, hwifi, Registry.server_entries, Registry.server_entries]

/-- What leaves a registry in a round of a pass: its log, its descriptors and
its nodes. -/
theorem visit_leaves {srcIsSpy : Bool} {before after : List Entry} {e : Entry} {r q : Registry}
    {g g' : Globals} {i : TIndex} (hentries : (v srcIsSpy).entries = before ++ e :: after)
    (h : Pass.VisitCases medium srcIsSpy (v srcIsSpy) (v !srcIsSpy) g before e after r q g' i) :
    ∃ removed acts, g'.kernel.log = g.kernel.log ++ acts ++ closeActs removed ∧
      (∀ a ∈ acts, a.isTransfer) ∧
      (∀ d ∈ acts.filterMap Act.source, g.scheduler.descriptorHasAction d = true) ∧
      (∀ d, holdersOf v d =
        holdersOf (Function.update (Function.update v srcIsSpy r) (!srcIsSpy) q) d +
        holders removed d) ∧
      g'.scheduler = Server.unwatch g.scheduler removed ∧
      (e.enabled = true ↔ ∀ a ∈ removed, a.enabled = true) := by
  have hgone : ∀ d, holdersOf v d = holdersOf (Function.update (Function.update v srcIsSpy
      ((v srcIsSpy).retire before e after)) (!srcIsSpy) (v !srcIsSpy)) d + holders [e] d := by
    intro d
    rw [holdersOf_both v srcIsSpy, holdersOf_pass, holders_retire hentries d]
    omega
  obtain ⟨reads, hreads, hread⟩ :=
    (CWifi.recvSignal_readsFrom g.kernel e.descriptor 0 g.buffer).log
  have htransfer : ∀ a ∈ reads, a.isTransfer := fun a ha =>
    Act.isTransfer_of_isRead (Act.isRead_of_isReadOf (hread a ha))
  have hsource : Pass.ready g e = true →
      ∀ d ∈ reads.filterMap Act.source, g.scheduler.descriptorHasAction d = true := by
    intro hready d hd
    rw [sources_talk (fun a ha => Act.isTalk_of_isReadOf (hread a ha)) d hd]
    exact hready
  cases h with
  | disabled henabled =>
    refine ⟨[e], [], ?_, by simp, by simp, hgone, rfl, by simp⟩
    simp [closeActs, henabled]
  | unreadable henabled hready _ =>
    refine ⟨[e], reads, ?_, htransfer, hsource hready, hgone, rfl, by simp⟩
    have hclose : closeActs [e] = [.close e.descriptor] := by
      rw [closeActs, List.filter_cons_of_pos henabled]
      rfl
    rw [hclose, ← hreads]
    rfl
  | idle henabled _ =>
    refine ⟨[], [], ?_, by simp, by simp, fun d => ?_, rfl, by simp [henabled]⟩
    · rw [closeActs_nil, List.append_nil, List.append_nil]
    · rw [holdersOf_both v srcIsSpy, holdersOf_pass]
      rfl
  | @forwarded _ hready _ before' after' others'
      acts₁ acts₂ acts₃ k hbefore hafter hothers hwrites =>
    have hacts : ∀ a ∈ reads ++ (acts₁ ++ acts₂ ++ acts₃), a.isTransfer := by
      intro a ha
      rcases List.mem_append.mp ha with ha | ha
      · exact htransfer a ha
      · rcases List.mem_append.mp ha with ha | ha
        · rcases List.mem_append.mp ha with ha | ha
          · exact delivers_transfer hbefore a ha
          · exact delivers_transfer hafter a ha
        · exact delivers_transfer hothers a ha
    have hsources : ∀ d ∈ (reads ++ (acts₁ ++ acts₂ ++ acts₃)).filterMap Act.source,
        g.scheduler.descriptorHasAction d = true := by
      rw [List.filterMap_append, List.filterMap_append, List.filterMap_append,
        delivers_sources hbefore, delivers_sources hafter, delivers_sources hothers]
      simpa using hsource hready
    refine ⟨[], reads ++ (acts₁ ++ acts₂ ++ acts₃), ?_, hacts, hsources, fun d => ?_, rfl, by simpa⟩
    · rw [closeActs_nil, List.append_nil, ← List.append_assoc, ← hreads]
      exact hwrites.log
    · have hsame : holders (before' ++ e :: after') d = holders (before ++ e :: after) d := by
        rw [holders_append, holders_append, holders_cons, holders_cons,
          holders_weakened hbefore.weakened, holders_weakened hafter.weakened]
      rw [holdersOf_both v srcIsSpy, holdersOf_pass, hentries]
      simp only [Registry.withEntries, hsame, holders_weakened hothers.weakened]
      rfl

theorem connect_holders {isSpy : Bool} {d : TDescriptor} {cid : TCID} {r : Registry}
    (h : (v isSpy).connect d cid = some r) (d' : TDescriptor) :
    holdersOf (Function.update v isSpy r) d' = holdersOf v d' + if d = d' then 1 else 0 := by
  obtain ⟨es, w, hentries, _, hweak⟩ := connect_entries h
  have hupdate := holdersOf_update v isSpy r d'
  have hnil : holders [] d' = 0 := rfl
  rw [hentries, holders_append, holders_cons, holders_weakened hweak, hnil, Nat.zero_add]
    at hupdate
  have hnew : (⟨⟨d, true⟩, w⟩ : Entry).descriptor = d := rfl
  rw [hnew] at hupdate
  omega

theorem withPass_kernel (s : Server) (srcIsSpy : Bool) (p : Pass) :
    (s.withPass srcIsSpy p).kernel = p.globals.kernel := by
  cases srcIsSpy <;> rfl

theorem unused_closed {s : Server} {d : TDescriptor} (h : s.unused d = true) :
    isOpen d s.kernel.log = false := by
  have := (of_decide_eq_true h).2
  simpa using this

theorem Sees.registry (hv : c.Sees v) (b : Bool) :
    (c.server.registry b).entries = (v b).entries := by
  rw [hv.views b, Registry.server_entries]

theorem step_flow (hv : c.Sees v) (h : StepCases medium c l v c' v') :
    ∃ removed, Flow v c.server.kernel.log removed v' c'.server.kernel.log ∧
      (c.RemovesEnabled l ↔ ∀ e ∈ removed, e.enabled = true) := by
  have hquiet : ∀ log, Flow v log [] v log := by
    intro log
    refine Flow.left (m := []) ?_ (by simp) fun d => rfl
    rw [closeActs_nil, List.append_nil, List.append_nil]
  cases h with
  | select r hphase hl =>
    refine ⟨[], hquiet _, ?_⟩
    simp [RemovesEnabled, hphase, hl]
  | skip hskip hl =>
    refine ⟨[], hquiet _, ?_⟩
    cases hphase : c.phase with
    | forward srcIsSpy i =>
      have hend : (v srcIsSpy).entries.length ≤ i := by
        rw [hphase] at hskip
        cases hskip with
        | forwarded _ _ h =>
          rwa [hv.views srcIsSpy, Registry.server_getNumberClient] at h
      simp [RemovesEnabled, hphase, hv.registry, List.getElem?_eq_none hend]
    | _ => rcases hl with rfl | rfl <;> simp [RemovesEnabled, hphase]
  | @accept _ isSpy inc cid r haccept hunused hconnect =>
    refine ⟨[], Flow.joined rfl (unused_closed hunused) rfl (connect_holders hconnect), ?_⟩
    generalize hphase : c.phase = phase₀ at haccept
    cases haccept <;> simp [RemovesEnabled, hphase]
  | @order inc stack s' _ hphase hl hready hunused hreceived =>
    obtain ⟨acts, hlog, hacts⟩ := hreceived.log
    refine ⟨_, Flow.ordered hlog (unused_closed hunused)
      (fun a ha => Act.isTransfer_of_isTalk (hacts a ha)) (ordered_holders hreceived.ordered), ?_⟩
    simp only [RemovesEnabled, hphase, hl, hv.held, Server.removedBy]
    split
    · simp [*]
    · simp [*]
  | @visit srcIsSpy before after e r q g i hphase hl hentries hcases =>
    obtain ⟨removed, acts, hlog, hacts, _, hheld, _, hiff⟩ := visit_leaves hentries hcases
    refine ⟨removed, ?_, ?_⟩
    · rw [withPass_kernel]
      exact Flow.left hlog hacts hheld
    · have hget : (v srcIsSpy).entries[before.length]? = some e := by
        rw [hentries]
        simp
      rw [← hiff]
      simp only [RemovesEnabled, hphase, hv.registry, hget, Option.some.injEq, forall_eq']

/-! ## Runs -/

/-- The descriptors the entries of both registries hold. -/
def held (c : Config) : List TDescriptor :=
  (c.server.wifiServer.entries ++ c.server.wifiServerSPY.entries).map Entry.descriptor

/-- The open connections are those of the entries, and each descriptor `accept`
returned has been closed once, except for those an entry still holds. -/
def Released (c : Config) : Prop :=
  ∀ d, (isOpen d c.server.kernel.log = true ↔ d ∈ c.held) ∧
    accepts d c.server.kernel.log = closes d c.server.kernel.log + c.held.count d

theorem Sees.count_held (hv : c.Sees v) (d : TDescriptor) :
    c.held.count d = holdersOf v d := by
  rw [Config.held, hv.held, List.map_append, List.count_append]
  rfl

theorem released_iff (hv : c.Sees v) (hl : Ledger v c.server.kernel.log) :
    c.Released ↔ ∀ d, holdersOf v d = opens d c.server.kernel.log := by
  refine forall_congr' fun d => ?_
  obtain ⟨hbalance, hle⟩ := hl d
  rw [← List.count_pos_iff, hv.count_held]
  constructor
  · rintro ⟨_, hcounts⟩
    omega
  · intro heq
    refine ⟨?_, by omega⟩
    rw [heq, opens]
    cases isOpen d c.server.kernel.log <;> simp

theorem init_ledger (setup : Setup) : Ledger initialView (init setup).server.kernel.log :=
  fun _ => ⟨rfl, Nat.zero_le _⟩

/-- In a run every open connection is held by an entry, and every descriptor is
closed once, when its entry is removed, exactly when no step of the run removes
a disabled entry. -/
theorem released_iff_removesEnabled (medium : Medium) (setup : Setup) (ls : List Label) :
    Lts.States (step medium) Released (init setup) ls ↔
      Lts.Steps (step medium) RemovesEnabled (init setup) ls := by
  have hledger₀ := init_ledger setup
  have hstep : ∀ c l c', (∃ v, c.Sees v ∧ Ledger v c.server.kernel.log) →
      step medium c l = some c' →
        (∃ v, c'.Sees v ∧ Ledger v c'.server.kernel.log) ∧
          (c.Released → (c'.Released ↔ c.RemovesEnabled l)) := by
    rintro c l c' ⟨v, hv, hl⟩ h
    obtain ⟨v', hv', hcases⟩ := step_cases hv h
    obtain ⟨removed, hflow, hiff⟩ := step_flow hv hcases
    have hl' := hflow.ledger hl
    refine ⟨⟨v', hv', hl'⟩, fun hreleased => ?_⟩
    rw [released_iff hv' hl', hflow.exact_iff hl ((released_iff hv hl).mp hreleased), hiff]
  have hledger : Lts.States (step medium) (fun c => ∃ v, c.Sees v ∧ Ledger v c.server.kernel.log)
      (init setup) ls :=
    Lts.states_of_invariant ls (fun c l c' hi h => (hstep c l c' hi h).1)
      ⟨initialView, init_sees setup, hledger₀⟩
  constructor
  · intro hstates
    refine Lts.steps_of_states ?_ (hstates.and hledger)
    rintro c l c' ⟨hreleased, hi⟩ ⟨hreleased', _⟩ h
    exact ((hstep c l c' hi h).2 hreleased).mp hreleased'
  · intro hsteps
    have hinit : (init setup).Released := by
      rw [released_iff (init_sees setup) hledger₀]
      intro d
      rfl
    have hboth : Lts.States (step medium)
        (fun c => c.Released ∧ ∃ v, c.Sees v ∧ Ledger v c.server.kernel.log) (init setup) ls := by
      refine Lts.states_of_steps ?_ ⟨hinit, initialView, init_sees setup, hledger₀⟩ hsteps
      rintro c l c' ⟨hreleased, hi⟩ hremoves h
      obtain ⟨hi', hiff⟩ := hstep c l c' hi h
      exact ⟨(hiff hreleased).mpr hremoves, hi'⟩
    exact hboth.mono fun _ h => h.1

/-- A reconnect disables the older connection, and the pass that removes its
entry leaves its descriptor open. -/
theorem released_fails :
    ¬ Lts.States (step Medium.uniform) Released (init Setup.tcp)
      (Label.joins ⟨10, [], []⟩ ⟨0x020010AC, 0⟩ 3 ++
        Label.joins ⟨11, [], []⟩ ⟨0x020010AC, 0⟩ 4) := by
  intro h
  have hrun : (Lts.run (step Medium.uniform) (init Setup.tcp)
      (Label.joins ⟨10, [], []⟩ ⟨0x020010AC, 0⟩ 3 ++
        Label.joins ⟨11, [], []⟩ ⟨0x020010AC, 0⟩ 4)).map
      (fun c => (isOpen 10 c.server.kernel.log, decide (10 ∈ c.held))) = some (true, false) := by
    decide +kernel
  obtain ⟨c, hc, hvalues⟩ := Option.map_eq_some_iff.mp hrun
  obtain ⟨hopen, hheld⟩ := Prod.mk.inj hvalues
  exact of_decide_eq_false hheld ((h.last hc 10).1.mp hopen)

end Config

end Vwifi
