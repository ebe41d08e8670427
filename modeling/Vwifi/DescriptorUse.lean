import Vwifi.Descriptors
import Vwifi.Lib.Lease

/-!
# The descriptors the server uses

In every run the server reads, writes and closes open descriptors only: a descriptor is
not used before it is accepted nor after it is closed, and none is closed twice.
-/

namespace Vwifi

set_option autoImplicit false

open Server (closeActs)

namespace Act

/-- The descriptor a call of `recv` or of `send` is about. -/
def peer : Act → Option TDescriptor
  | recv d _ _ => some d
  | send d _ _ => some d
  | _ => none

/-- What an act does to a descriptor. -/
def lease : Act → Option (Lease.Event TDescriptor)
  | accept d => some (.acquire d)
  | recv d _ _ => some (.use d)
  | send d _ _ => some (.use d)
  | close d => some (.release d)
  | use _ _ => none

theorem lease_transfer {a : Act} (h : a.isTransfer) : a.lease = a.peer.map .use := by
  cases a <;> first | rfl | cases h

end Act

/-- The open descriptors. -/
def opened (log : List Act) : Set TDescriptor := fun d => isOpen d log = true

def leases (log : List Act) : List (Lease.Event TDescriptor) := log.filterMap Act.lease

theorem opened_snoc (log : List Act) (a : Act) :
    opened (log ++ [a]) = match a.lease with
      | none => opened log
      | some e => e.next (opened log) := by
  ext d
  change isOpen d (log ++ [a]) = true ↔ _
  rw [isOpen_append, List.foldl_cons, List.foldl_nil]
  cases a with
  | accept d' =>
    change openStep d (isOpen d log) (.accept d') = true ↔ d ∈ insert d' (opened log)
    rw [openStep, Set.mem_insert_iff]
    split
    · rename_i heq
      exact iff_of_true rfl (Or.inl heq.symm)
    · rename_i hne
      exact ⟨Or.inr, fun h => h.resolve_left fun heq => hne heq.symm⟩
  | close d' =>
    change openStep d (isOpen d log) (.close d') = true ↔ d ∈ opened log \ {d'}
    rw [openStep, Set.mem_sdiff, Set.mem_singleton_iff]
    split
    · rename_i heq
      exact iff_of_false Bool.false_ne_true fun h => h.2 heq.symm
    · rename_i hne
      exact ⟨fun h => ⟨h, fun heq => hne heq.symm⟩, fun h => h.1⟩
  | recv _ _ _ => exact Iff.rfl
  | send _ _ _ => exact Iff.rfl
  | use _ _ => exact Iff.rfl

/-- The open descriptors are those that are held. -/
theorem after_leases (log m : List Act) :
    Lease.after (opened log) (leases m) = opened (log ++ m) := by
  induction m generalizing log with
  | nil =>
    rw [List.append_nil]
    rfl
  | cons a m ih =>
    have hsnoc := opened_snoc log a
    have hsplit : log ++ a :: m = log ++ [a] ++ m := by
      rw [List.append_assoc, List.singleton_append]
    rw [hsplit, ← ih, hsnoc, leases, List.filterMap_cons]
    cases a.lease with
    | none => rfl
    | some e => rfl

/-- The acts `m` are allowed behind `log`. -/
def Respects (log m : List Act) : Prop := Lease.Disciplined (opened log) (leases m)

section Respects

variable {log m m' : List Act} {d : TDescriptor}

theorem respects_append : Respects log (m ++ m') ↔ Respects log m ∧ Respects (log ++ m) m' := by
  rw [Respects, leases, List.filterMap_append, Lease.disciplined_append]
  exact and_congr_right fun _ => by rw [Respects, ← after_leases, leases, leases]

theorem respects_nil : Respects log [] := trivial

theorem respects_accept (h : isOpen d log = false) : Respects log [.accept d] :=
  ⟨fun hopen => Bool.false_ne_true (h.symm.trans hopen), trivial⟩

theorem respects_close (h : isOpen d log = true) : Respects log [.close d] := ⟨h, trivial⟩

theorem respects_transfer (htransfer : ∀ a ∈ m, a.isTransfer)
    (h : ∀ a ∈ m, ∀ d, a.peer = some d → isOpen d log = true) : Respects log m := by
  refine (Lease.disciplined_uses fun e he => ?_).1
  obtain ⟨a, ha, hlease⟩ := List.mem_filterMap.mp he
  rw [Act.lease_transfer (htransfer a ha)] at hlease
  obtain ⟨d, hpeer, rfl⟩ := Option.map_eq_some_iff.mp hlease
  exact ⟨d, h a ha d hpeer, rfl⟩

theorem leases_closeActs (es : List Entry) :
    leases (closeActs es) = ((es.filter Entry.enabled).map Entry.descriptor).map .release := by
  have hrelease : (Act.lease ∘ fun e : Entry => Act.close e.descriptor) =
      some ∘ (Lease.Event.release ∘ Entry.descriptor) := rfl
  rw [leases, closeActs, List.filterMap_map, List.map_map, hrelease, List.filterMap_eq_map]

theorem respects_closeActs {es : List Entry} (hnodup : (es.map Entry.descriptor).Nodup)
    (h : ∀ e ∈ es, isOpen e.descriptor log = true) : Respects log (closeActs es) := by
  rw [Respects, leases_closeActs]
  refine Lease.disciplined_releases (hnodup.sublist (List.filter_sublist.map _)) fun d hd => ?_
  obtain ⟨e, he, rfl⟩ := List.mem_map.mp hd
  exact h e (List.mem_filter.mp he).1

/-- Every act of the log is allowed where it stands. -/
theorem Respects.allowed {before behind : List Act} {a : Act}
    (h : Respects [] (before ++ a :: behind)) :
    (∀ d, a = .accept d → isOpen d before = false) ∧
      (∀ d, a.peer = some d → isOpen d before = true) ∧
        ∀ d, a = .close d → isOpen d before = true := by
  rw [respects_append, List.nil_append] at h
  obtain ⟨_, hrest⟩ := h
  rw [Respects, leases, List.filterMap_cons] at hrest
  refine ⟨?_, ?_, ?_⟩
  · rintro d rfl
    exact Bool.not_eq_true _ ▸ hrest.1
  · intro d hpeer
    cases a with
    | recv d' _ _ =>
      cases hpeer
      exact hrest.1
    | send d' _ _ =>
      cases hpeer
      exact hrest.1
    | accept _ => cases hpeer
    | close _ => cases hpeer
    | use _ _ => cases hpeer
  · rintro d rfl
    exact hrest.1

end Respects

namespace Config

section Step

variable {medium : Medium} {c c' : Config} {l : Label} {v v' : Bool → Registry} {log : List Act}

/-- An entry holds an open descriptor, and no other entry holds it. -/
theorem Ledger.entries (hl : Ledger v log) :
    (((v false).entries ++ (v true).entries).map Entry.descriptor).Nodup ∧
      ∀ b, ∀ e ∈ (v b).entries, isOpen e.descriptor log = true := by
  constructor
  · rw [List.nodup_iff_count_le_one]
    intro d
    have hle := (hl d).2
    have hone := opens_le_one d log
    have hcount := holders_append (v false).entries (v true).entries d
    rw [holders] at hcount
    rw [hcount]
    exact Nat.le_trans hle hone
  · intro b e he
    have hpos := holders_pos he
    have hle := (hl e.descriptor).2
    rw [holdersOf_both v b] at hle
    rw [opens] at hle
    cases hopen : isOpen e.descriptor log with
    | true => rfl
    | false =>
      rw [hopen, Bool.toNat_false] at hle
      omega

/-- What an order closes are open descriptors, each one once. -/
theorem removedBy_entries (hl : Ledger v log) (order : TOrder) :
    ((Server.removedBy v order).map Entry.descriptor).Nodup ∧
      ∀ e ∈ Server.removedBy v order, isOpen e.descriptor log = true := by
  obtain ⟨hnodup, hopen⟩ := hl.entries
  unfold Server.removedBy
  split
  · refine ⟨hnodup, fun e he => ?_⟩
    rcases List.mem_append.mp he with he | he
    · exact hopen false e he
    · exact hopen true e he
  · exact ⟨List.nodup_nil, fun e he => absurd he List.not_mem_nil⟩

theorem isOpen_closeActs {es : List Entry} {d : TDescriptor} (h : ∀ e ∈ es, e.descriptor ≠ d) :
    isOpen d (log ++ closeActs es) = isOpen d log := by
  have hnone : holders (es.filter Entry.enabled) d = 0 := by
    apply List.count_eq_zero.mpr
    intro hmem
    obtain ⟨e, he, heq⟩ := List.mem_map.mp hmem
    exact h e (List.mem_filter.mp he).1 heq
  have hopens := opens_closeActs d es log
  rw [if_pos hnone, opens, opens] at hopens
  apply Bool.eq_iff_iff.mpr
  rw [← Bool.toNat_eq_one, ← Bool.toNat_eq_one, hopens]

theorem delivers_peer {mayLose : Bool} {level : Entry → TPower} {data : List UInt8}
    {es es' : List Entry} {acts : List Act} (h : Delivers mayLose level data es acts es') :
    ∀ a ∈ acts, ∀ d, a.peer = some d → ∃ e ∈ es, e.enabled = true ∧ e.descriptor = d := by
  have hskip {e : Entry} {es : List Entry} {d : TDescriptor}
      (h : ∃ a ∈ es, a.enabled = true ∧ a.descriptor = d) :
      ∃ a ∈ e :: es, a.enabled = true ∧ a.descriptor = d := by
    obtain ⟨a, ha, hd⟩ := h
    exact ⟨a, List.mem_cons_of_mem _ ha, hd⟩
  induction h with
  | nil => exact fun a ha => absurd ha List.not_mem_nil
  | disabled _ _ ih => exact fun a ha d hd => hskip (ih a ha d hd)
  | lost _ _ _ _ ih => exact fun a ha d hd => hskip (ih a ha d hd)
  | @called e _ _ _ calls _ henabled hcall _ _ ih =>
    intro a ha d hd
    rcases List.mem_append.mp ha with ha | ha
    · refine ⟨e, List.mem_cons_self, henabled, ?_⟩
      cases hcall <;> simp only [List.mem_cons, List.not_mem_nil, or_false] at ha
      · rcases ha with rfl | rfl <;> exact Option.some.inj hd
      · rcases ha with rfl | rfl <;> exact Option.some.inj hd
      · rw [ha] at hd
        exact Option.some.inj hd
    · exact hskip (ih a ha d hd)

theorem talk_peer {d d' : TDescriptor} {a : Act} (h : a.isTalk d) (hd : a.peer = some d') :
    d' = d := by
  cases a with
  | recv d'' _ _ =>
    cases hd
    simpa [Act.isTalk] using h
  | send d'' _ _ =>
    cases hd
    simpa [Act.isTalk] using h
  | accept _ => cases hd
  | close _ => cases hd
  | use _ _ => cases hd

/-- A round of a pass reads the descriptor of its entry and writes to the others. -/
theorem visit_respects {srcIsSpy : Bool} {before after : List Entry} {e : Entry} {r q : Registry}
    {g g' : Globals} {i : TIndex} (hentries : (v srcIsSpy).entries = before ++ e :: after)
    (hopen : ∀ b, ∀ e ∈ (v b).entries, isOpen e.descriptor g.kernel.log = true)
    (h : Pass.VisitCases medium srcIsSpy (v srcIsSpy) (v !srcIsSpy) g before e after r q g' i) :
    ∃ m, g'.kernel.log = g.kernel.log ++ m ∧ Respects g.kernel.log m := by
  have hself : isOpen e.descriptor g.kernel.log = true := hopen srcIsSpy e (by rw [hentries]; simp)
  obtain ⟨reads, hreads, hread⟩ :=
    (CWifi.recvSignal_readsFrom g.kernel e.descriptor 0 g.buffer).log
  have htransfer : ∀ a ∈ reads, a.isTransfer := fun a ha =>
    Act.isTransfer_of_isRead (Act.isRead_of_isReadOf (hread a ha))
  have hpeer : ∀ a ∈ reads, ∀ d, a.peer = some d → isOpen d g.kernel.log = true := by
    intro a ha d hd
    rw [talk_peer (Act.isTalk_of_isReadOf (hread a ha)) hd]
    exact hself
  cases h with
  | disabled _ => exact ⟨[], (List.append_nil _).symm, respects_nil⟩
  | idle _ _ => exact ⟨[], (List.append_nil _).symm, respects_nil⟩
  | unreadable _ _ _ =>
    refine ⟨reads ++ [.close e.descriptor], ?_, ?_⟩
    · rw [← List.append_assoc, ← hreads]
      rfl
    · refine respects_append.mpr ⟨respects_transfer htransfer hpeer, respects_close ?_⟩
      rw [isOpen_transfer e.descriptor g.kernel.log htransfer]
      exact hself
  | @forwarded _ _ _ before' after' others' acts₁ acts₂ acts₃ k hbefore hafter hothers hwrites =>
    refine ⟨reads ++ (acts₁ ++ acts₂ ++ acts₃), ?_, ?_⟩
    · rw [← List.append_assoc, ← hreads]
      exact hwrites.log
    · have hsource {a : Act} (ha : a ∈ acts₁ ++ acts₂) {d : TDescriptor} (hd : a.peer = some d) :
          isOpen d g.kernel.log = true := by
        rcases List.mem_append.mp ha with ha | ha
        · obtain ⟨x, hx, _, rfl⟩ := delivers_peer hbefore a ha d hd
          exact hopen srcIsSpy x (by rw [hentries]; exact List.mem_append_left _ hx)
        · obtain ⟨x, hx, _, rfl⟩ := delivers_peer hafter a ha d hd
          exact hopen srcIsSpy x
            (by rw [hentries]; exact List.mem_append_right _ (List.mem_cons_of_mem _ hx))
      apply respects_transfer
      · intro a ha
        rcases List.mem_append.mp ha with ha | ha
        · exact htransfer a ha
        · rcases List.mem_append.mp ha with ha | ha
          · rcases List.mem_append.mp ha with ha | ha
            · exact delivers_transfer hbefore a ha
            · exact delivers_transfer hafter a ha
          · exact delivers_transfer hothers a ha
      · intro a ha d hd
        rcases List.mem_append.mp ha with ha | ha
        · exact hpeer a ha d hd
        · rcases List.mem_append.mp ha with ha | ha
          · exact hsource ha hd
          · obtain ⟨x, hx, _, rfl⟩ := delivers_peer hothers a ha d hd
            exact hopen (!srcIsSpy) x hx

theorem step_respects (hl : Ledger v c.server.kernel.log)
    (h : StepCases medium c l v c' v') :
    ∃ m, c'.server.kernel.log = c.server.kernel.log ++ m ∧ Respects c.server.kernel.log m := by
  obtain ⟨hnodup, hopen⟩ := hl.entries
  cases h with
  | select _ _ _ => exact ⟨[], (List.append_nil _).symm, respects_nil⟩
  | skip _ _ => exact ⟨[], (List.append_nil _).symm, respects_nil⟩
  | accept _ hunused _ => exact ⟨_, rfl, respects_accept (unused_closed hunused)⟩
  | @order inc stack s' _ _ _ _ hunused hreceived =>
    obtain ⟨acts, hlog, hacts⟩ := hreceived.log
    have hclosed := unused_closed hunused
    have htransfer : ∀ a ∈ acts, a.isTransfer := fun a ha => Act.isTransfer_of_isTalk (hacts a ha)
    obtain ⟨hremovedNodup, hremoved⟩ := removedBy_entries hl (c.server.orderOf stack inc)
    have hstay (d : TDescriptor) (h : d = inc.descriptor ∨ isOpen d c.server.kernel.log = true) :
        isOpen d (c.server.kernel.log ++ [.accept inc.descriptor] ++ acts) = true := by
      rw [isOpen_transfer d _ htransfer, isOpen_append, List.foldl_cons, List.foldl_nil, openStep]
      split
      · rfl
      · rename_i hne
        exact h.resolve_left fun heq => hne heq.symm
    refine ⟨[.accept inc.descriptor] ++ acts ++
      closeActs (Server.removedBy v (c.server.orderOf stack inc)) ++ [.close inc.descriptor],
      ?_, ?_⟩
    · rw [hlog]
      simp only [List.append_assoc]
    · refine respects_append.mpr ⟨respects_append.mpr ⟨respects_append.mpr
        ⟨respects_accept hclosed, respects_transfer htransfer fun a ha d hd => ?_⟩, ?_⟩, ?_⟩
      · have hopened := hstay d (Or.inl (talk_peer (hacts a ha) hd))
        rwa [isOpen_transfer d _ htransfer] at hopened
      · rw [← List.append_assoc]
        exact respects_closeActs hremovedNodup fun e he => hstay _ (Or.inr (hremoved e he))
      · apply respects_close
        rw [← List.append_assoc, ← List.append_assoc, isOpen_closeActs]
        · exact hstay _ (Or.inl rfl)
        · intro e he heq
          have hopened := hremoved e he
          rw [heq, hclosed] at hopened
          cases hopened
  | @visit srcIsSpy before after e r q g i _ _ hentries hcases =>
    obtain ⟨m, hlog, hrespects⟩ := visit_respects hentries hopen hcases
    refine ⟨m, ?_, hrespects⟩
    rw [withPass_kernel]
    exact hlog

end Step

/-! ## Runs -/

/-- Every act of the log is about a descriptor that it is allowed for: what is accepted
was closed, what is read, written or closed was open. -/
def UsesOpen (c : Config) : Prop :=
  ∀ before a behind, c.server.kernel.log = before ++ a :: behind →
    (∀ d, a = .accept d → isOpen d before = false) ∧
      (∀ d, a.peer = some d → isOpen d before = true) ∧
        ∀ d, a = .close d → isOpen d before = true

theorem usesOpen_of_respects {c : Config} (h : Respects [] c.server.kernel.log) : c.UsesOpen := by
  intro before a behind hlog
  rw [hlog] at h
  exact h.allowed

/-- Whatever happens, and in whatever order: in every state of a run the server has used
open descriptors only. None is read, written or closed before it is accepted or after it
is closed, so none is closed twice. -/
theorem descriptors_open (medium : Medium) (setup : Setup) (ls : List Label) :
    Lts.States (step medium) UsesOpen (init setup) ls := by
  have hall : Lts.States (step medium) (fun c => ∃ v, c.Sees v ∧
      Ledger v c.server.kernel.log ∧ Respects [] c.server.kernel.log) (init setup) ls := by
    apply Lts.states_of_invariant ls
    · rintro c l c' ⟨v, hv, hl, hrespects⟩ h
      obtain ⟨v', hv', hcases⟩ := step_cases hv h
      obtain ⟨removed, hflow, _⟩ := step_flow hv hcases
      obtain ⟨m, hlog, hm⟩ := step_respects hl hcases
      refine ⟨v', hv', hflow.ledger hl, ?_⟩
      rw [hlog]
      exact respects_append.mpr ⟨hrespects, hm⟩
    · exact ⟨initialView, init_sees setup, init_ledger setup, respects_nil⟩
  apply hall.mono
  rintro c ⟨_, _, _, hrespects⟩
  exact usesOpen_of_respects hrespects

end Config

end Vwifi
