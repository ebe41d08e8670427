import Vwifi.Scheduled

/-!
# Waiting for the descriptors

`Wait` returns what `pselect` returned, and a `pselect` that a signal interrupts
returns the number that stands for `SCHEDULER_ERROR`. In between two waits the
main loop attends to what the last one reported, and to nothing else.
-/

namespace Vwifi

set_option autoImplicit false

namespace CSelect

/-- How a call of `pselect` ends, and in the first case what can be read. -/
inductive Outcome where
  | readable (ready : FdSet)
  | interrupted
  | failed

/-- `pselect( nfds , &set , NULL , NULL , NULL , sigmask )` looks at the
descriptors of the set below `nfds`. -/
def pselect (nfds : Int) (set : FdSet) : Outcome → Selection
  | .readable ready =>
    .ready (fun d => set d && ready d && decide ((d : Int) < nfds))
      ((List.range nfds.toNat).countP fun d => set d && ready d)
  | .interrupted => .interrupted
  | .failed => .failed

def select (s : CSelect) (o : Outcome) : Selection := pselect (s.maxDescriptor + 1) s.master o

inductive Use where
  | addNode (descriptor : TDescriptor)
  | delNode (descriptor : TDescriptor)
  | wait (o : Outcome)

def use (s : CSelect) : Use → CSelect
  | .addNode descriptor => s.addNode descriptor
  | .delNode descriptor => s.delNode descriptor
  | .wait o => (s.wait (s.select o)).2

/-- A scheduler after any use, also one that adds a node twice. -/
def used (us : List Use) : CSelect := us.foldl use init

/-- `pselect` was asked about the descriptor and found it ready. -/
inductive Reports (s : CSelect) : Outcome → TDescriptor → Prop where
  | readable {ready : FdSet} {d : TDescriptor} (hset : s.master d = true)
      (hready : ready d = true) : Reports s (.readable ready) d

structure WaitExact (s : CSelect) (o : Outcome) : Prop where
  error : (s.wait (s.select o)).1 = schedulerError ↔ o = .failed
  ready : (s.wait (s.select o)).1 ≠ schedulerError → ∀ d,
    (s.wait (s.select o)).2.descriptorHasAction d = true ↔ d ∈ s.listNodes ∧ s.Reports o d
  node : (s.wait (s.select o)).1 ≠ schedulerError → ∀ index d, s.listNodes[index]? = some d →
    ((s.wait (s.select o)).2.nodeHasAction index = some true ↔ s.Reports o d)

/-! ## What the call of pselect covers -/

/-- The set and the maximum handed to `pselect` belong to the nodes. -/
structure Covered (s : CSelect) : Prop where
  listed : ∀ d, s.master d = true → d ∈ s.listNodes
  below : ∀ d ∈ s.listNodes, (d : Int) ≤ s.maxDescriptor

variable {s : CSelect} {o : Outcome}

theorem Coherent.covered (h : s.Coherent) : s.Covered :=
  ⟨fun d => (h.master d).mp, fun _ => h.le_maximum⟩

theorem addNode_covered (h : s.Covered) (d : TDescriptor) : (s.addNode d).Covered where
  listed := by
    intro d' hset
    rw [addNode, List.mem_append, List.mem_singleton]
    by_cases heq : d' = d
    · exact Or.inr heq
    · left
      apply h.listed
      simpa [addNode, heq] using hset
  below := by
    intro d' hd'
    rcases List.mem_append.mp hd' with hd' | hd'
    · exact (h.below d' hd').trans (le_updateMaxDescriptor _ d)
    · rw [List.mem_singleton.mp hd']
      exact descriptor_le_updateMaxDescriptor _ d

theorem delNode_covered (h : s.Covered) (d : TDescriptor) : (s.delNode d).Covered where
  listed := by
    intro d' hset
    rw [delNode_listNodes]
    simp only [delNode, delNodeLoop_eq] at hset
    by_cases hd : d ∈ s.listNodes
    · by_cases heq : d' = d
      · subst heq
        simp [hd] at hset
      · apply (List.mem_erase_of_ne heq).mpr
        apply h.listed
        simpa [hd, heq] using hset
    · rw [List.erase_of_not_mem hd]
      apply h.listed
      simpa [hd] using hset
  below := by
    intro d' hd'
    rw [delNode_listNodes] at hd'
    simp only [delNode, delNodeLoop_eq]
    exact descriptor_le_foldl hd'

theorem use_covered (h : s.Covered) (u : Use) : (s.use u).Covered := by
  cases u with
  | addNode d => exact addNode_covered h d
  | delNode d => exact delNode_covered h d
  | wait o => cases o <;> exact ⟨h.listed, h.below⟩

theorem used_covered (us : List Use) : (used us).Covered := by
  have hinit : init.Covered := init_coherent.covered
  unfold used
  generalize init = s at hinit
  induction us generalizing s with
  | nil => exact hinit
  | cons u us ih => exact ih (s.use u) (use_covered hinit u)

/-! ## One wait -/

/-- After a `pselect` that succeeds the working set is what it reported. -/
theorem hasAction_iff (h : s.Covered) (ready : FdSet) (d : TDescriptor) :
    (s.wait (s.select (.readable ready))).2.descriptorHasAction d = true ↔
      s.Reports (.readable ready) d := by
  simp only [select, pselect, wait, descriptorHasAction, Bool.and_eq_true, decide_eq_true_eq]
  constructor
  · rintro ⟨⟨hset, hready⟩, _⟩
    exact Reports.readable hset hready
  · rintro ⟨hset, hready⟩
    have hle := h.below d (h.listed d hset)
    exact ⟨⟨hset, hready⟩, by omega⟩

theorem wait_readable (s : CSelect) (ready : FdSet) :
    (s.wait (s.select (.readable ready))).1 ≠ schedulerError := by
  rw [schedulerError]
  simp only [select, pselect, wait]
  omega

theorem waitExact_iff (h : s.Covered) (o : Outcome) : s.WaitExact o ↔ o ≠ .interrupted := by
  cases o with
  | interrupted =>
    constructor
    · intro hexact
      cases hexact.error.mp rfl
    · intro hne
      exact absurd rfl hne
  | failed =>
    refine ⟨fun _ => (by rintro ⟨⟩), fun _ => ⟨iff_of_true rfl rfl, ?_, ?_⟩⟩
    · intro hne
      exact absurd rfl hne
    · intro hne
      exact absurd rfl hne
  | readable ready =>
    have hne := wait_readable s ready
    refine ⟨fun _ => (by rintro ⟨⟩), fun _ => ⟨?_, ?_, ?_⟩⟩
    · exact iff_of_false hne (by rintro ⟨⟩)
    · intro _ d
      rw [hasAction_iff h]
      constructor
      · intro hreports
        cases hreports with
        | readable hset hready => exact ⟨h.listed d hset, Reports.readable hset hready⟩
      · exact And.right
    · intro _ index d hget
      have hnode : (s.wait (s.select (.readable ready))).2.nodeHasAction index =
          some ((s.wait (s.select (.readable ready))).2.descriptorHasAction d) := by
        have hnodes : (s.wait (s.select (.readable ready))).2.listNodes[index]? = some d := hget
        rw [nodeHasAction, hnodes, Option.map_some, descriptorHasAction]
      rw [hnode, Option.some.injEq, hasAction_iff h]

end CSelect

/-! ## What a step attends to -/

def Label.isSelect : Label → Bool
  | .select _ => true
  | _ => false

/-- The listening descriptor whose connections are accepted at a place of the loop. -/
def Server.listenerAt (s : Server) : Phase → Option TDescriptor
  | .acceptVTCP => s.vtcp.map Listener.master
  | .acceptITCP => some s.itcp.master
  | .acceptSPY => some s.spy.master
  | .order => some s.ctrl.master
  | _ => none

namespace Config

/-- The step accepts only on a reported listening descriptor, and reads only
reported descriptors and the connection it has itself accepted. -/
structure Attentive (reported : TDescriptor → Prop) (c : Config) (l : Label) (c' : Config) :
    Prop where
  accepts : l ≠ .skip → ∃ m, c.server.listenerAt c.phase = some m ∧ reported m
  acts : ∃ acts, c'.server.kernel.log = c.server.kernel.log ++ acts ∧
    (∀ d, .accept d ∈ acts → l ≠ .skip) ∧
    ∀ d ∈ acts.filterMap Act.source, reported d ∨ .accept d ∈ acts

/-- `pselect` ends as `o` says: the loop ends only when it failed, and goes
through its body attending to what was reported. -/
structure LoopSafe (medium : Medium) (c : Config) (o : CSelect.Outcome) : Prop where
  ends : step medium c (.select (c.server.globals.scheduler.select o)) = none ↔ o = .failed
  attentive : ∀ (ls : List Label) (l : Label) (c₁ c₂ : Config),
    (∀ l' ∈ ls ++ [l], l'.isSelect = false) →
    Lts.run (step medium) c (.select (c.server.globals.scheduler.select o) :: ls) = some c₁ →
    step medium c₁ l = some c₂ → Attentive (c.server.globals.scheduler.Reports o) c₁ l c₂

theorem sources_closeActs (es : List Entry) :
    (Server.closeActs es).filterMap Act.source = [] := by
  rw [List.filterMap_eq_nil_iff]
  intro a ha
  obtain ⟨e, _, rfl⟩ := List.mem_map.mp ha
  rfl

variable {medium : Medium} {c c' : Config} {l : Label} {v : Bool → Registry}

theorem step_ready (h : step medium c l = some c') (hselect : l.isSelect = false)
    (hskip : l ≠ .skip) :
    ∃ m, c.server.listenerAt c.phase = some m ∧
      c.server.globals.scheduler.descriptorHasAction m = true := by
  simp only [step] at h
  split at h <;> rename_i hphase
  · cases hselect
  · -- Accept of the VHOST server
    split at h
    · rename_i hif
      have hready := hif.1
      rw [vtcpHasAction] at hready
      cases hvtcp : c.server.vtcp with
      | none =>
        rw [hvtcp] at hready
        cases hready
      | some vtcp =>
        rw [hvtcp] at hready
        exact ⟨vtcp.master, by rw [hphase, Server.listenerAt, hvtcp]; rfl, hready⟩
    · cases h
  · exact absurd rfl hskip
  · split at h
    · rename_i hif
      exact ⟨_, by rw [hphase]; rfl, hif.1⟩
    · cases h
  · exact absurd rfl hskip
  · split at h
    · rename_i hif
      exact ⟨_, by rw [hphase]; rfl, hif.1⟩
    · cases h
  · exact absurd rfl hskip
  · -- ReceiveOrder
    split at h
    · rename_i hif
      exact ⟨_, by rw [hphase]; rfl, hif.1⟩
    · cases h
  · split at h
    · rename_i hready
      exact ⟨_, by rw [hphase]; rfl, hready⟩
    · cases h
  · exact absurd rfl hskip
  · exact absurd rfl hskip
  · cases h

theorem step_attentive (hv : c.Sees v) (h : step medium c l = some c')
    (hselect : l.isSelect = false) :
    Attentive (c.server.globals.scheduler.descriptorHasAction · = true) c l c' where
  accepts := step_ready h hselect
  acts := by
    obtain ⟨v', _, hcases⟩ := step_cases hv h
    cases hcases with
    | select r hphase hl =>
      rw [hl] at hselect
      cases hselect
    | skip hskip hl =>
      exact ⟨[], (List.append_nil _).symm, fun _ hd => absurd hd List.not_mem_nil, by simp⟩
    | accept haccept hunused hconnect =>
      refine ⟨_, rfl, ?_, by simp [Act.source]⟩
      intro d _
      generalize c.phase = phase at haccept
      cases haccept <;> simp
    | @order inc stack s' v' hphase hl hready hunused hreceived =>
      obtain ⟨acts, hlog, htalk⟩ := hreceived.log
      rw [List.append_assoc, List.append_assoc, List.append_assoc] at hlog
      refine ⟨_, hlog, ?_, ?_⟩
      · intro d _
        rw [hl]
        simp
      · intro d hd
        rw [List.filterMap_append, List.filterMap_append, List.filterMap_append,
          sources_closeActs] at hd
        have hacts : d ∈ acts.filterMap Act.source := by simpa [Act.source] using hd
        rw [sources_talk htalk d hacts]
        exact Or.inr (by simp)
    | visit hphase hl hentries hcases =>
      obtain ⟨removed, acts, hlog, htransfer, hsource, _⟩ := visit_leaves hentries hcases
      refine ⟨acts ++ Server.closeActs removed, ?_, ?_, ?_⟩
      · rw [withPass_kernel, ← List.append_assoc]
        exact hlog
      · intro d hd
        rcases List.mem_append.mp hd with hd | hd
        · exact absurd (htransfer _ hd) Bool.false_ne_true
        · obtain ⟨e', _, he'⟩ := List.mem_map.mp hd
          cases he'
      · intro d hd
        rw [List.filterMap_append, sources_closeActs, List.append_nil] at hd
        exact Or.inl (hsource d hd)

/-! ## Between two waits -/

theorem unwatch_dup (sched : CSelect) (es : List Entry) :
    (Server.unwatch sched es).dup = sched.dup := by
  induction es generalizing sched with
  | nil => rfl
  | cons e es ih => exact ih (sched.delNode e.descriptor)

/-- Only `Wait` changes the working set. -/
theorem step_dup (hv : c.Sees v) (h : step medium c l = some c') (hselect : l.isSelect = false) :
    c'.server.globals.scheduler.dup = c.server.globals.scheduler.dup := by
  obtain ⟨v', _, hcases⟩ := step_cases hv h
  cases hcases with
  | select r hphase hl =>
    rw [hl] at hselect
    cases hselect
  | skip hskip hl => rfl
  | accept haccept hunused hconnect => rfl
  | order hphase hl hready hunused hreceived =>
    rw [hreceived.scheduler]
    exact unwatch_dup _ _
  | visit hphase hl hentries hcases =>
    obtain ⟨removed, _, _, _, _, _, hsched, _⟩ := visit_leaves hentries hcases
    rw [withPass_globals, hsched]
    exact unwatch_dup _ _

theorem run_dup {ls : List Label} (hv : c.Sees v) (hselect : ∀ l ∈ ls, l.isSelect = false)
    (hrun : Lts.run (step medium) c ls = some c') :
    (∃ v', c'.Sees v') ∧
      c'.server.globals.scheduler.dup = c.server.globals.scheduler.dup := by
  have hsteps : Lts.Steps (step medium) (fun _ l => l.isSelect = false) c ls :=
    Lts.steps_of_labels hselect c
  have hstates : Lts.States (step medium) (fun t => (∃ v', t.Sees v') ∧
      t.server.globals.scheduler.dup = c.server.globals.scheduler.dup) c ls := by
    refine Lts.states_of_steps ?_ ⟨⟨v, hv⟩, rfl⟩ hsteps
    rintro t l t' ⟨⟨u, hu⟩, hdup⟩ hl h
    obtain ⟨u', hu', _⟩ := step_cases hu h
    exact ⟨⟨u', hu'⟩, (step_dup hu h hl).trans hdup⟩
  exact hstates.last hrun

/-- The body of the loop begins, with what `Wait` has left. -/
def waited (s : Server) (r : CSelect.Selection) : Config :=
  ⟨.acceptVTCP, { s with globals :=
    { s.globals with scheduler := (s.globals.scheduler.wait r).2 } }⟩

theorem step_select (medium : Medium) (hphase : c.phase = .wait) (r : CSelect.Selection) :
    step medium c (.select r) =
      if (c.server.globals.scheduler.wait r).1 = CSelect.schedulerError then none
      else some (waited c.server r) := by
  simp only [step, hphase, selectStep]
  rfl

theorem loopSafe_iff (hv : c.Sees v) (hcovered : c.server.globals.scheduler.Covered)
    (hphase : c.phase = .wait) (o : CSelect.Outcome) :
    LoopSafe medium c o ↔ o ≠ .interrupted := by
  have hstep := step_select medium hphase (c.server.globals.scheduler.select o)
  cases o with
  | interrupted =>
    constructor
    · intro hsafe
      cases hsafe.ends.mp hstep
    · intro hne
      exact absurd rfl hne
  | failed =>
    refine ⟨fun _ => (by rintro ⟨⟩), fun _ => ⟨iff_of_true hstep rfl, ?_⟩⟩
    intro ls l c₁ c₂ _ hrun _
    rw [Lts.run, hstep] at hrun
    cases hrun
  | readable ready =>
    refine ⟨fun _ => (by rintro ⟨⟩), fun _ => ?_⟩
    rw [if_neg (CSelect.wait_readable c.server.globals.scheduler ready)] at hstep
    refine ⟨?_, ?_⟩
    · rw [hstep]
      exact iff_of_false (by rintro ⟨⟩) (by rintro ⟨⟩)
    · intro ls l c₁ c₂ hselect hrun h
      rw [Lts.run_cons hstep] at hrun
      have hls : ∀ l' ∈ ls, l'.isSelect = false := fun l' hl' =>
        hselect l' (List.mem_append_left _ hl')
      have hv₀ : (waited c.server (c.server.globals.scheduler.select (.readable ready))).Sees v :=
        ⟨hv.views, hv.ctrlSockets⟩
      obtain ⟨⟨v₁, hv₁⟩, hdup⟩ := run_dup hv₀ hls hrun
      have hreported : ∀ d, c₁.server.globals.scheduler.descriptorHasAction d = true ↔
          c.server.globals.scheduler.Reports (.readable ready) d := by
        intro d
        rw [← CSelect.hasAction_iff hcovered ready d, CSelect.descriptorHasAction, hdup]
        rfl
      have hattentive := step_attentive hv₁ h (hselect l (by simp))
      simp only [hreported] at hattentive
      exact hattentive

/-- The scheduler and the main loop do right by every outcome of `pselect` but an
interruption. -/
theorem waits_iff (o : CSelect.Outcome) :
    (∀ us : List CSelect.Use, (CSelect.used us).WaitExact o ↔ o ≠ .interrupted) ∧
    ∀ (medium : Medium) (setup : Setup) (ls : List Label),
      Lts.States (step medium) (fun c => c.phase = .wait → (LoopSafe medium c o ↔ o ≠ .interrupted))
        (init setup) ls := by
  refine ⟨fun us => CSelect.waitExact_iff (CSelect.used_covered us) o, ?_⟩
  intro medium setup ls
  refine (states_watches medium setup ls).mono ?_
  rintro c ⟨v, hv, _, hw⟩ hphase
  exact loopSafe_iff hv hw.coherent.covered hphase o

/-- A signal that interrupts the first wait ends the loop, while each listening
descriptor seems to have a connection. -/
theorem waits_fails :
    (¬ ∀ (us : List CSelect.Use) (o : CSelect.Outcome), (CSelect.used us).WaitExact o) ∧
      ¬ LoopSafe Medium.uniform (init Setup.tcp) .interrupted ∧
      step Medium.uniform (init Setup.tcp)
        (.select ((init Setup.tcp).server.globals.scheduler.select .interrupted)) = none ∧
      ((init Setup.tcp).server.globals.scheduler.wait
        ((init Setup.tcp).server.globals.scheduler.select .interrupted)).2.descriptorHasAction 3 =
          true := by
  refine ⟨?_, ?_, rfl, by decide⟩
  · intro h
    cases (h [] .interrupted).error.mp rfl
  · intro h
    cases h.ends.mp rfl

end Config

end Vwifi
