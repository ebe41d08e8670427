import Vwifi.Framing
import Vwifi.Visit

/-!
# A pass of ForwardData

`Sweep` is what one pass is meant to do, with the registry cut at the place the
pass has come to: the entries it leaves behind, and those it has still to visit.
The loop of `ForwardData`, which erases from the vectors it walks through,
follows it.
-/

namespace Vwifi

set_option autoImplicit false

/-- One round: the entry as it was when its turn came, whether it stays in the
registry, and the system calls. -/
structure Visit where
  entry : Entry
  stays : Bool
  acts : List Act

def Entry.connection (e : Entry) : TDescriptor × CInfoWifi := (e.descriptor, e.info)

theorem map_connection_eq {es es' : List Entry} (h : List.Forall₂ Entry.Weakened es es') :
    es'.map Entry.connection = es.map Entry.connection := by
  induction h with
  | nil => rfl
  | cons h _ ih => rw [List.map_cons, List.map_cons, ih, Entry.connection, Entry.connection,
      h.descriptor, h.info]

namespace Pass

variable (medium : Medium) (srcIsSpy : Bool)

/-- `Sweep done todo others g visits final others' g'`: from the place between
`done` and `todo` the pass makes the rounds `visits`. A ready entry is read once;
its frame goes to the enabled entries of its own registry, before and after it,
and then to those of the other one. -/
inductive Sweep : List Entry → List Entry → List Entry → Globals → List Visit → List Entry →
    List Entry → Globals → Prop where
  | finish (done others : List Entry) (g : Globals) :
      Sweep done [] others g [] done others g
  | disabled {done todo others final others' : List Entry} {e : Entry} {g g' : Globals}
      {visits : List Visit} (h : e.enabled = false)
      (rest : Sweep done todo others { g with scheduler := g.scheduler.delNode e.descriptor }
        visits final others' g') :
      Sweep done (e :: todo) others g (⟨e, false, []⟩ :: visits) final others' g'
  | unreadable {done todo others final others' : List Entry} {e : Entry} {g g' : Globals}
      {visits : List Visit} {reads : List Act} (h : e.enabled = true) (hready : ready g e = true)
      (hfail : (received g e).valread ≤ 0)
      (hreads : (received g e).kernel.log = g.kernel.log ++ reads)
      (hisRead : ∀ a ∈ reads, a.isRead)
      (rest : Sweep done todo others
        { g with
          kernel := (received g e).kernel.close e.descriptor
          buffer := (received g e).buffer
          scheduler := g.scheduler.delNode e.descriptor } visits final others' g') :
      Sweep done (e :: todo) others g (⟨e, false, reads ++ [.close e.descriptor]⟩ :: visits) final
        others' g'
  | idle {done todo others final others' : List Entry} {e : Entry} {g g' : Globals}
      {visits : List Visit} (h : e.enabled = true) (hready : ready g e = false)
      (rest : Sweep (done ++ [e]) todo others g visits final others' g') :
      Sweep done (e :: todo) others g (⟨e, true, []⟩ :: visits) final others' g'
  | forwarded {done done' todo todo' others others'' final others' : List Entry} {e : Entry}
      {g g' : Globals} {k : Kernel} {visits : List Visit} {reads acts₁ acts₂ acts₃ : List Act}
      (h : e.enabled = true) (hready : ready g e = true) (hread : ¬ (received g e).valread ≤ 0)
      (hreads : (received g e).kernel.log = g.kernel.log ++ reads)
      (hisRead : ∀ a ∈ reads, a.isRead)
      (hdone : Delivers (mayLose srcIsSpy g)
        (levelFrom medium srcIsSpy g e (received g e).power (frame (received g e)))
        (frame (received g e)) done acts₁ done')
      (htodo : Delivers (mayLose srcIsSpy g)
        (levelFrom medium srcIsSpy g e (received g e).power (frame (received g e)))
        (frame (received g e)) todo acts₂ todo')
      (hothers : Delivers false (fun _ => (received g e).power) (frame (received g e))
        others acts₃ others'')
      (hwrites : (received g e).kernel.Writes k (acts₁ ++ acts₂ ++ acts₃))
      (rest : Sweep (done' ++ [e]) todo' others''
        { g with kernel := k, buffer := (received g e).buffer } visits final others' g') :
      Sweep done (e :: todo) others g
        (⟨e, true, reads ++ (acts₁ ++ acts₂ ++ acts₃)⟩ :: visits) final
        others' g'

variable {medium srcIsSpy} {done todo others final others' : List Entry} {g g' : Globals}
  {visits : List Visit}

/-- Every entry is visited once, in the order of the registry. -/
theorem Sweep.visited (h : Sweep medium srcIsSpy done todo others g visits final others' g') :
    visits.map (·.entry.connection) = todo.map Entry.connection := by
  induction h with
  | finish => rfl
  | disabled _ _ ih => rw [List.map_cons, List.map_cons, ih]
  | unreadable _ _ _ _ _ _ ih => rw [List.map_cons, List.map_cons, ih]
  | idle _ _ _ ih => rw [List.map_cons, List.map_cons, ih]
  | forwarded _ _ _ _ _ _ htodo _ _ _ ih =>
    rw [List.map_cons, List.map_cons, ih, map_connection_eq htodo.weakened]

/-- The entries that stay keep their order. -/
theorem Sweep.survivors (h : Sweep medium srcIsSpy done todo others g visits final others' g') :
    final.map Entry.connection =
      done.map Entry.connection ++ (visits.filter Visit.stays).map (·.entry.connection) := by
  induction h with
  | finish => simp
  | disabled _ _ ih => rw [ih, List.filter_cons_of_neg (by simp)]
  | unreadable _ _ _ _ _ _ ih => rw [ih, List.filter_cons_of_neg (by simp)]
  | idle _ _ _ ih =>
    rw [ih, List.filter_cons_of_pos rfl, List.map_append, List.append_assoc]
    rfl
  | forwarded _ _ _ _ _ hdone _ _ _ _ ih =>
    rw [ih, List.filter_cons_of_pos rfl, List.map_append, List.append_assoc,
      map_connection_eq hdone.weakened]
    rfl

/-- No entry of the other registry is added, removed or moved. -/
theorem Sweep.others_kept (h : Sweep medium srcIsSpy done todo others g visits final others' g') :
    List.Forall₂ Entry.Weakened others others' := by
  induction h with
  | finish _ others _ => exact List.forall₂_same.mpr fun e _ => Entry.Weakened.refl e
  | disabled _ _ ih => exact ih
  | unreadable _ _ _ _ _ _ ih => exact ih
  | idle _ _ _ ih => exact ih
  | forwarded _ _ _ _ _ _ _ hothers _ _ ih => exact weakened_trans hothers.weakened ih

/-- The system calls of the pass are those of its rounds, one round after the other. -/
theorem Sweep.log (h : Sweep medium srcIsSpy done todo others g visits final others' g') :
    g'.kernel.log = g.kernel.log ++ visits.flatMap Visit.acts := by
  induction h with
  | finish => simp
  | disabled _ _ ih => simpa using ih
  | unreadable _ _ _ hreads _ _ ih =>
    rw [ih, List.flatMap_cons]
    simp [Kernel.close, Kernel.record, hreads]
  | idle _ _ _ ih => simpa using ih
  | forwarded _ _ _ hreads _ _ _ _ hwrites _ ih =>
    rw [ih, List.flatMap_cons]
    simp [hwrites.log, hreads]

theorem received_log (g : Globals) (e : Entry) :
    ∃ reads, (received g e).kernel.log = g.kernel.log ++ reads ∧ ∀ a ∈ reads, a.isRead :=
  (CWifi.recvSignal_readsFrom g.kernel e.descriptor 0 g.buffer).reads

/-- The loop from any place of the registry: the induction is on the rounds left,
and the place it has come to is the length of what it leaves behind. -/
theorem forwardLoop_sweep (medium : Medium) (srcIsSpy : Bool) (fuel : Nat) (r q : Registry)
    (g : Globals) (done todo : List Entry) (h : r.entries = done ++ todo)
    (hfuel : todo.length ≤ fuel) :
    ∃ (r' q' : Registry) (g' : Globals) (visits : List Visit),
      (Pass.mk r.server q.server g).forwardLoop medium srcIsSpy fuel done.length =
          some ⟨r'.server, q'.server, g'⟩ ∧
        Sweep medium srcIsSpy done todo q.entries g visits r'.entries q'.entries g' := by
  induction fuel generalizing r q g done todo with
  | zero =>
    have htodo : todo = [] := List.length_eq_zero_iff.mp (Nat.le_zero.mp hfuel)
    subst htodo
    rw [List.append_nil] at h
    refine ⟨r, q, g, [], ?_, ?_⟩
    · have hstop : ¬ done.length < r.server.getNumberClient := by
        rw [Registry.server_getNumberClient, h]
        exact Nat.lt_irrefl _
      rw [forwardLoop, if_neg hstop]
    · rw [h]
      exact Sweep.finish _ _ _
  | succ fuel ih =>
    cases todo with
    | nil =>
      rw [List.append_nil] at h
      refine ⟨r, q, g, [], ?_, ?_⟩
      · have hstop : ¬ done.length < r.server.getNumberClient := by
          rw [Registry.server_getNumberClient, h]
          exact Nat.lt_irrefl _
        rw [forwardLoop, if_neg hstop]
      · rw [h]
        exact Sweep.finish _ _ _
    | cons e todo =>
      have hgo : done.length < r.server.getNumberClient := by
        rw [Registry.server_getNumberClient, h, List.length_append, List.length_cons]
        omega
      have hfuel' : todo.length ≤ fuel := Nat.le_of_succ_le_succ hfuel
      obtain ⟨r', q', g', i', hvisit, hcases⟩ :=
        @visit_cases medium srcIsSpy r q g done todo e h
      rw [forwardLoop, if_pos hgo]
      simp only [hvisit]
      obtain ⟨reads, hreads, hisRead⟩ := received_log g e
      cases hcases with
      | disabled henabled =>
        obtain ⟨r'', q'', g'', visits, hloop, hsweep⟩ := ih (r.retire done e todo) q _ done todo rfl
          hfuel'
        exact ⟨r'', q'', g'', _, hloop, Sweep.disabled henabled hsweep⟩
      | unreadable henabled hready hfail =>
        obtain ⟨r'', q'', g'', visits, hloop, hsweep⟩ := ih (r.retire done e todo) q _ done todo rfl
          hfuel'
        exact ⟨r'', q'', g'', _, hloop,
          Sweep.unreadable henabled hready hfail hreads hisRead hsweep⟩
      | idle henabled hready =>
        have h' : r.entries = (done ++ [e]) ++ todo := by
          rw [h, List.append_assoc, List.singleton_append]
        obtain ⟨r'', q'', g'', visits, hloop, hsweep⟩ := ih r q g (done ++ [e]) todo h' hfuel'
        rw [List.length_append, List.length_singleton] at hloop
        exact ⟨r'', q'', g'', _, hloop, Sweep.idle henabled hready hsweep⟩
      | @forwarded henabled hready hread done' todo' others' _ _ _ k hdone htodo hothers hwrites =>
        have h' : (r.withEntries (done' ++ e :: todo')).entries = (done' ++ [e]) ++ todo' := by
          rw [List.append_assoc, List.singleton_append]
          rfl
        have hlen : done'.length = done.length := hdone.weakened.length_eq.symm
        obtain ⟨r'', q'', g'', visits, hloop, hsweep⟩ :=
          ih (r.withEntries (done' ++ e :: todo')) (q.withEntries others') _ (done' ++ [e]) todo' h'
            (htodo.weakened.length_eq ▸ hfuel')
        rw [List.length_append, List.length_singleton, hlen] at hloop
        exact ⟨r'', q'', g'', _, hloop, Sweep.forwarded henabled hready hread hreads hisRead hdone
          htodo hothers hwrites hsweep⟩

/-- One pass of `ForwardData` over registries whose vectors have equal length
ends without leaving their bounds, and is a sweep over the entries present at
its start. -/
theorem forwardData_sweeps (medium : Medium) (srcIsSpy : Bool) (p : Pass) (hsrc : p.src.Sound)
    (hdst : p.otherDst.Sound) :
    ∃ p' visits, p.forwardData medium srcIsSpy = some p' ∧ p'.src.Sound ∧ p'.otherDst.Sound ∧
      Sweep medium srcIsSpy [] p.src.entries p.otherDst.entries p.globals visits p'.src.entries
        p'.otherDst.entries p'.globals ∧
      visits.map (·.entry.connection) = p.src.entries.map Entry.connection ∧
      p'.src.entries.map Entry.connection =
        (visits.filter Visit.stays).map (·.entry.connection) ∧
      p'.otherDst.entries.map Entry.connection = p.otherDst.entries.map Entry.connection ∧
      p'.globals.kernel.log = p.globals.kernel.log ++ visits.flatMap Visit.acts := by
  obtain ⟨src, otherDst, g⟩ := p
  obtain ⟨r, rfl⟩ := Registry.eq_server hsrc
  obtain ⟨q, rfl⟩ := Registry.eq_server hdst
  obtain ⟨r', q', g', visits, hloop, hsweep⟩ :=
    forwardLoop_sweep medium srcIsSpy r.entries.length r q g [] r.entries rfl (Nat.le_refl _)
  refine ⟨⟨r'.server, q'.server, g'⟩, visits, ?_, r'.server_sound, q'.server_sound, ?_,
    ?_, ?_, ?_, hsweep.log⟩
  · rw [← hloop, forwardData, Registry.server_getNumberClient]
    rfl
  · simpa only [Registry.server_entries] using hsweep
  · simpa only [Registry.server_entries] using hsweep.visited
  · simpa only [Registry.server_entries, List.map_nil, List.nil_append] using hsweep.survivors
  · simpa only [Registry.server_entries] using map_connection_eq hsweep.others_kept

/-- Three clients, the first one disabled and the second one ready, and a spy. -/
def small : Pass where
  src := ⟨15, [⟨10, false⟩, ⟨11, true⟩, ⟨12, true⟩],
    [CInfoWifi.default, CInfoWifi.default, CInfoWifi.default], []⟩
  otherDst := ⟨1, [⟨20, true⟩], [CInfoWifi.default], []⟩
  globals :=
    { scheduler := ⟨fun _ => true, (· = 11), 20, [10, 11, 12, 20]⟩
      buffer := ⟨[]⟩
      canLostPackets := false
      scale := 0
      kernel :=
        ⟨fun _ => [[236, 16], List.replicate 15 0], fun _ => [1, 16], [], fun _ => 0, []⟩ }

theorem forwardData_sweeps_small :
    ∃ (p' : Pass) (visits : List Visit), small.forwardData Medium.uniform false = some p' ∧
      visits.map (·.entry.connection) = small.src.entries.map Entry.connection := by
  obtain ⟨p', visits, hpass, _, _, _, hvisits, _⟩ :=
    forwardData_sweeps Medium.uniform false small ⟨rfl, by decide⟩ ⟨rfl, by decide⟩
  exact ⟨p', visits, hpass, hvisits⟩

end Pass

end Vwifi
