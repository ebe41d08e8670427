import Vwifi.Descriptors
import Vwifi.Lookup

/-!
# The disconnected records

A record is remembered when its entry leaves the registry, and also when an
order gives coordinates to a guest that is not there. It is forgotten when its
guest connects again, or when the list is full. A connection that a reconnect
displaced leaves the registry like any other one: its record is remembered next
to the live connection of its guest.
-/

namespace Vwifi

set_option autoImplicit false

/-- The CIDs of the disconnected records, the oldest one first. -/
def CWifiServer.remembered (s : CWifiServer) : List TCID :=
  s.infoWifisDeconnected.map CInfoWifi.cid

/-- The disconnected records fit into their list, one for each guest, and none of
a guest that has an enabled client. -/
structure CWifiServer.RemembersAbsent (s : CWifiServer) : Prop where
  bounded : s.infoWifisDeconnected.length ≤ s.maxClientDeconnected
  distinct : s.remembered.Nodup
  absent : ∀ cid ∈ s.remembered, cid ∉ liveCids s.entries

/-- A remembered guest is still remembered, or it has connected, or the list is
full of other guests. -/
def CWifiServer.Forgets (accepted : Option (Incoming × TCID)) (s s' : CWifiServer) : Prop :=
  ∀ cid ∈ s.remembered, cid ∈ s'.remembered ∨ (∃ inc, accepted = some (inc, cid)) ∨
    s'.remembered.Nodup ∧ cid ∉ s'.remembered ∧ s'.remembered.length = s'.maxClientDeconnected

/-- Whether the round of `ForwardData` at the entry `e` removes it. -/
def Pass.removes (g : Globals) (e : Entry) : Bool :=
  !e.enabled || (ready g e && decide ((received g e).valread ≤ 0))

namespace Registry

def remembered (r : Registry) : List TCID := r.stored.map CInfoWifi.cid

/-- `RemembersAbsent`, of the abstract registry. -/
structure RemembersAbsent (r : Registry) : Prop where
  bounded : r.stored.length ≤ r.capacity
  distinct : r.remembered.Nodup
  absent : ∀ cid ∈ r.remembered, cid ∉ liveCids r.entries

variable {r r' : Registry} {d : TDescriptor} {cid : TCID}

theorem server_remembersAbsent (h : r.RemembersAbsent) : r.server.RemembersAbsent where
  bounded := h.bounded
  distinct := h.distinct
  absent := by
    rw [server_entries]
    exact h.absent

/-- What one registry has to show of a step. -/
structure Remembers (accepted : Option (Incoming × TCID)) (r r' : Registry) : Prop where
  absent : r'.RemembersAbsent
  forgets : CWifiServer.Forgets accepted r.server r'.server

theorem remembers_of_subset {accepted : Option (Incoming × TCID)} (h : r'.RemembersAbsent)
    (hsub : ∀ cid ∈ r.remembered, cid ∈ r'.remembered) : Remembers accepted r r' :=
  ⟨h, fun cid hcid => Or.inl (hsub cid hcid)⟩

/-- Removed and disabled entries leave a registry whose records do not change. -/
theorem remembers_live {accepted : Option (Incoming × TCID)} (h : r.RemembersAbsent)
    (hcapacity : r'.capacity = r.capacity) (hstored : r'.remembered = r.remembered)
    (hlive : ∀ cid ∈ liveCids r'.entries, cid ∈ liveCids r.entries) : Remembers accepted r r' := by
  have hlen : r'.stored.length = r.stored.length := by
    have := congrArg List.length hstored
    rwa [remembered, remembered, List.length_map, List.length_map] at this
  refine remembers_of_subset ⟨?_, hstored ▸ h.distinct, ?_⟩ fun cid hcid => hstored ▸ hcid
  · rw [hlen, hcapacity]
    exact h.bounded
  · intro cid hcid hcontra
    rw [hstored] at hcid
    exact h.absent cid hcid (hlive cid hcontra)

theorem remembers_weakened {accepted : Option (Incoming × TCID)} {es : List Entry}
    (h : r.RemembersAbsent) (hweakened : List.Forall₂ Entry.Weakened r.entries es) :
    Remembers accepted r (r.withEntries es) :=
  remembers_live h rfl rfl (liveCids_weakened hweakened).subset

/-- Entries leave whose CIDs are neither remembered, nor live among those that
stay, nor twice among themselves. -/
theorem remembers_pushAll {es : List Entry} {infos : List CInfoWifi} (h : r.RemembersAbsent)
    (hdistinct : (r.remembered ++ infos.map CInfoWifi.cid).Nodup)
    (hrest : ∀ cid ∈ liveCids es, cid ∈ liveCids r.entries ∧ cid ∉ infos.map CInfoWifi.cid) :
    Remembers none r
      { r with entries := es, stored := Bounded.pushAll r.capacity r.stored infos } := by
  have hsub := (Bounded.pushAll_sublist infos r.positive h.bounded).map CInfoWifi.cid
  rw [List.map_append] at hsub
  have hnodup : ((Bounded.pushAll r.capacity r.stored infos).map CInfoWifi.cid).Nodup :=
    hsub.nodup hdistinct
  refine ⟨⟨Bounded.pushAll_length_le infos r.positive h.bounded, hnodup, ?_⟩, ?_⟩
  · intro cid hcid hlive
    obtain ⟨hbefore, hnew⟩ := hrest cid hlive
    rcases List.mem_append.mp (hsub.subset hcid) with hcid | hcid
    · exact h.absent cid hcid hbefore
    · exact hnew hcid
  · intro cid hcid
    by_cases hkept : cid ∈ (Bounded.pushAll r.capacity r.stored infos).map CInfoWifi.cid
    · exact Or.inl hkept
    · refine Or.inr (Or.inr ⟨hnodup, hkept, ?_⟩)
      obtain ⟨w, hw, rfl⟩ := List.mem_map.mp hcid
      rcases Bounded.mem_pushAll_or_full infos r.positive h.bounded hw with hmem | hfull
      · exact absurd (List.mem_map_of_mem hmem) hkept
      · exact (List.length_map _).trans hfull

theorem remembers_retire {before after : List Entry} {e : Entry} (h : r.RemembersAbsent)
    (hentries : r.entries = before ++ e :: after) (hnew : e.cid ∉ r.remembered)
    (hother : e.cid ∉ liveCids (before ++ after)) : Remembers none r (r.retire before e after) := by
  refine @remembers_pushAll r _ [e.info] h ?_ ?_
  · exact nodup_append_singleton.mpr ⟨hnew, h.distinct⟩
  · intro cid hcid
    constructor
    · rw [hentries]
      exact (((List.sublist_cons_self e after).append_left before).filter _ |>.map _).subset hcid
    · rw [List.map_singleton, List.mem_singleton]
      rintro rfl
      exact hother hcid

theorem remembers_clear (h : r.RemembersAbsent)
    (hdistinct : (r.remembered ++ cids r.entries).Nodup) : Remembers none r r.clear := by
  apply remembers_pushAll h
  · rwa [List.map_map]
  · intro cid hcid
    exact absurd hcid List.not_mem_nil

/-- The CID of a new connection is no longer remembered. -/
theorem connect_remembered (h : r.connect d cid = some r') :
    r'.capacity = r.capacity ∧ r'.remembered = r.remembered.erase cid := by
  have herase : r.remembered.erase cid = (r.stored.eraseP (·.cid = cid)).map CInfoWifi.cid := by
    rw [remembered, List.erase_eq_eraseP', List.eraseP_map]
    rfl
  unfold connect at h
  split at h
  · cases h
    exact ⟨rfl, herase.symm⟩
  · rename_i hstored
    have hnone : r.remembered.erase cid = r.remembered := by
      apply List.erase_of_not_mem
      intro hcid
      obtain ⟨w, hw, hwcid⟩ := List.mem_map.mp hcid
      exact List.find?_eq_none.mp hstored w hw (by simpa using hwcid)
    rw [hnone]
    split at h
    · cases h
      exact ⟨rfl, rfl⟩
    · obtain ⟨w, _, rfl⟩ := Option.map_eq_some_iff.mp h
      exact ⟨rfl, rfl⟩

theorem remembers_connect {inc : Incoming} (h : r.RemembersAbsent)
    (hconnect : r.connect inc.descriptor cid = some r') : Remembers (some (inc, cid)) r r' := by
  obtain ⟨hcapacity, hremembered⟩ := connect_remembered hconnect
  obtain ⟨es, w, hentries, hw, hweakened⟩ := Config.connect_entries hconnect
  have hsub : r'.remembered.Sublist r.remembered := hremembered ▸ List.erase_sublist
  refine ⟨⟨?_, hsub.nodup h.distinct, ?_⟩, ?_⟩
  · have hlen := hsub.length_le
    rw [remembered, remembered, List.length_map, List.length_map] at hlen
    exact hcapacity ▸ hlen.trans h.bounded
  · intro cid' hcid' hlive
    rw [hremembered, h.distinct.mem_erase_iff] at hcid'
    rw [hentries, liveCids_append] at hlive
    rcases List.mem_append.mp hlive with hlive | hlive
    · exact h.absent cid' hcid'.2 ((liveCids_weakened hweakened).subset hlive)
    · have hnew : liveCids [⟨⟨inc.descriptor, true⟩, w⟩] = [w.cid] := rfl
      rw [hnew, List.mem_singleton, hw] at hlive
      exact hcid'.1 hlive
  · intro cid' hcid'
    by_cases heq : cid' = cid
    · exact Or.inr (Or.inl ⟨inc, by rw [heq]⟩)
    · refine Or.inl ?_
      change cid' ∈ r'.remembered
      rw [hremembered, h.distinct.mem_erase_iff]
      exact ⟨heq, hcid'⟩

theorem remembered_amendStored (r : Registry) (i : Nat) {f : CInfoWifi → CInfoWifi}
    (hf : ∀ w, (f w).cid = w.cid) : (r.amendStored i f).remembered = r.remembered := by
  rw [remembered, remembered, amendStored]
  apply List.ext_getElem?
  intro j
  rw [List.getElem?_map, List.getElem?_map, List.getElem?_modify]
  cases r.stored[j]? with
  | none => rfl
  | some w =>
    simp only [Option.map_some]
    split
    · exact congrArg some (hf w)
    · rfl

theorem remembers_storeCoordinate (h : r.RemembersAbsent) (w : CInfoWifi) :
    Remembers none r (r.storeCoordinate w) := by
  have hlive := liveCids_storeCoordinate r w
  unfold storeCoordinate at hlive ⊢
  split
  · rename_i i hentry
    simp only [hentry] at hlive
    exact remembers_live h rfl rfl fun cid hcid => hlive ▸ hcid
  · rename_i hentry
    have habsent : w.cid ∉ liveCids r.entries := by
      intro hcid
      obtain ⟨e, he, hislive⟩ := mem_liveCids.mp hcid
      have hne := List.findIdx?_eq_none_iff.mp hentry e he
      exact of_decide_eq_false hne (Entry.isLive_iff.mp hislive).2
    split
    · exact remembers_live h rfl (remembered_amendStored r _ fun _ => rfl) fun cid hcid => hcid
    · rename_i hstored
      have hnew : w.cid ∉ r.remembered := by
        intro hcid
        obtain ⟨w', hw', heq⟩ := List.mem_map.mp hcid
        exact of_decide_eq_false (List.findIdx?_eq_none_iff.mp hstored w' hw') heq
      refine @remembers_pushAll r r.entries [w] h (nodup_append_singleton.mpr ⟨hnew, h.distinct⟩) ?_
      intro cid hcid
      refine ⟨hcid, ?_⟩
      rw [List.map_singleton, List.mem_singleton]
      rintro rfl
      exact habsent hcid

theorem remembers_storeName {name : CString} (h : r.RemembersAbsent)
    (hname : r.storeName cid name = some r') : Remembers none r r' := by
  have hlive := liveCids_storeName hname
  unfold storeName at hname
  split at hname
  · cases hname
    exact remembers_live h rfl rfl fun cid hcid => hlive ▸ hcid
  · obtain ⟨i, _, rfl⟩ := Option.map_eq_some_iff.mp hname
    exact remembers_live h rfl
      (remembered_amendStored r i fun w => CInfoWifi.setName_cid w name)
        fun cid hcid => hlive ▸ hcid

theorem remembers_refl {accepted : Option (Incoming × TCID)} (h : r.RemembersAbsent) :
    Remembers accepted r r :=
  remembers_live h rfl rfl fun _ hcid => hcid

end Registry

namespace Config

/-- A registry remembers the entries a step removes only when none of them has the
CID of a disconnected record, or of another client: of an enabled one for a round
of a pass, of any one for the order that closes them all. -/
def RetiresUnknown (c : Config) (l : Label) : Prop :=
  match c.phase, l with
  | .forward srcIsSpy i, _ =>
    ∀ e, (c.server.registry srcIsSpy).entries[i]? = some e →
      Pass.removes c.server.globals e = true →
        e.cid ∉ (c.server.registry srcIsSpy).remembered ∧
          e.cid ∉ liveCids ((c.server.registry srcIsSpy).entries.eraseIdx i)
  | .order, .order inc stack =>
    c.server.orderOf stack inc = .torderCloseAllClient →
      ∀ b, ((c.server.registry b).remembered ++ cids (c.server.registry b).entries).Nodup
  | _, _ => True

/-- In both registries the disconnected records are those of absent guests. -/
def RemembersAbsent (c : Config) : Prop := ∀ b, (c.server.registry b).RemembersAbsent

/-- The step forgets a guest only when it connects or for the sake of as many
other guests as the list holds. -/
def ForgetsForOthers (medium : Medium) (c : Config) (l : Label) : Prop :=
  ∀ c', step medium c l = some c' → ∀ b,
    CWifiServer.Forgets (c.acceptOf l b) (c.server.registry b) (c'.server.registry b)

variable {medium : Medium} {c c' : Config} {l : Label} {v v' : Bool → Registry}

theorem Sees.remembered (hv : c.Sees v) (b : Bool) :
    (c.server.registry b).remembered = (v b).remembered := by
  rw [hv.views b]
  rfl

theorem ordered_remembers {inc : Incoming} {stack : Stack} (hv : c.Sees v)
    (hphase : c.phase = .order) (hsafe : c.RetiresUnknown (.order inc stack))
    (h : Server.Ordered v v' (Server.removedBy v (c.server.orderOf stack inc)))
    (habsent : ∀ b, (v b).RemembersAbsent) (b : Bool) :
    Registry.Remembers none (v b) (v' b) := by
  simp only [RetiresUnknown, hphase] at hsafe
  generalize hremoved : Server.removedBy v (c.server.orderOf stack inc) = removed at h
  cases h with
  | same => exact Registry.remembers_refl (habsent b)
  | coordinate w =>
    cases b with
    | false => exact Registry.remembers_storeCoordinate (habsent false) w
    | true => exact Registry.remembers_refl (habsent true)
  | name cid name h =>
    cases b with
    | false => exact Registry.remembers_storeName (habsent false) h
    | true => exact Registry.remembers_refl (habsent true)
  | @spyName cid name i h hspy =>
    cases b with
    | false => exact Registry.remembers_refl (habsent false)
    | true =>
      have hlive := liveCids_amend (v true).entries i fun w => CInfoWifi.setName_cid w name
      exact Registry.remembers_live (habsent true) rfl rfl fun cid hcid => hlive ▸ hcid
  | closeAll =>
    apply Registry.remembers_clear (habsent b)
    rw [Server.removedBy] at hremoved
    split at hremoved
    · rename_i hclose
      have hnodup := hsafe hclose b
      rwa [hv.remembered, hv.registry] at hnodup
    · -- another order has nothing to remove: both registries are empty
      have hboth := List.append_eq_nil_iff.mp hremoved.symm
      have hnil : (v b).entries = [] := by
        cases b with
        | false => exact hboth.1
        | true => exact hboth.2
      rw [hnil]
      exact (List.append_nil _).symm ▸ (habsent b).distinct

theorem visit_remembers {srcIsSpy : Bool} {r q r' q' : Registry} {g g' : Globals}
    {before after : List Entry} {e : Entry} {i : TIndex}
    (h : Pass.VisitCases medium srcIsSpy r q g before e after r' q' g' i)
    (hentries : r.entries = before ++ e :: after)
    (hsafe : Pass.removes g e = true →
      e.cid ∉ r.remembered ∧ e.cid ∉ liveCids (before ++ after))
    (habsent : r.RemembersAbsent) (habsent' : q.RemembersAbsent) :
    Registry.Remembers none r r' ∧ Registry.Remembers none q q' := by
  have hother : Registry.Remembers none q q := Registry.remembers_refl habsent'
  cases h with
  | disabled henabled =>
    obtain ⟨hnew, hlive⟩ := hsafe (by simp [Pass.removes, henabled])
    exact ⟨Registry.remembers_retire habsent hentries hnew hlive, hother⟩
  | unreadable henabled hready hfail =>
    obtain ⟨hnew, hlive⟩ := hsafe (by simp [Pass.removes, hready, hfail])
    exact ⟨Registry.remembers_retire habsent hentries hnew hlive, hother⟩
  | idle => exact ⟨Registry.remembers_refl habsent, hother⟩
  | forwarded _ _ _ hbefore hafter hothers =>
    refine ⟨Registry.remembers_weakened habsent ?_,
      Registry.remembers_weakened habsent' hothers.weakened⟩
    rw [hentries]
    exact List.rel_append hbefore.weakened
      (List.Forall₂.cons (Entry.Weakened.refl e) hafter.weakened)

theorem StepCases.remembers (h : StepCases medium c l v c' v') (hv : c.Sees v)
    (hsafe : c.RetiresUnknown l) (habsent : ∀ b, (v b).RemembersAbsent) (b : Bool) :
    Registry.Remembers (c.acceptOf l b) (v b) (v' b) := by
  cases h with
  | select r hphase hl => exact Registry.remembers_refl (habsent b)
  | skip hskip hl => exact Registry.remembers_refl (habsent b)
  | @accept phase isSpy inc cid r haccept hunused hconnect =>
    rw [show c.acceptOf l b = _ from haccept.acceptOf b]
    by_cases hb : b = isSpy
    · subst hb
      rw [if_pos rfl, Function.update_self]
      exact Registry.remembers_connect (habsent b) hconnect
    · rw [Function.update_of_ne hb]
      exact Registry.remembers_refl (habsent b)
  | @order inc stack _ _ hphase hl _ _ hreceived =>
    have hnone : c.acceptOf l b = none := by
      cases b <;> simp [acceptOf, hphase, hl]
    rw [hnone]
    exact ordered_remembers hv hphase (hl ▸ hsafe) hreceived.ordered habsent b
  | @visit srcIsSpy before after e r q g i hphase hl hentries hcases =>
    have hnone : c.acceptOf l b = none := by
      cases b <;> simp [acceptOf, hphase, hl]
    have hget : (v srcIsSpy).entries[before.length]? = some e := by
      rw [hentries]
      simp
    have herase : (v srcIsSpy).entries.eraseIdx before.length = before ++ after := by
      rw [hentries, List.eraseIdx_append_of_length_le (Nat.le_refl _), Nat.sub_self]
      rfl
    simp only [RetiresUnknown, hphase, hv.registry, hv.remembered] at hsafe
    have hsafe' := hsafe e hget
    rw [herase] at hsafe'
    obtain ⟨hsrc, hother⟩ :=
      visit_remembers hcases hentries hsafe' (habsent srcIsSpy) (habsent !srcIsSpy)
    rw [hnone]
    by_cases hb : b = srcIsSpy
    · subst hb
      rw [Function.update_of_ne (by simp), Function.update_self]
      exact hsrc
    · have hb' : b = !srcIsSpy := by cases b <;> cases srcIsSpy <;> simp_all
      subst hb'
      rw [Function.update_self]
      exact hother

/-! ## Runs -/

theorem initialView_absent (b : Bool) : (initialView b).RemembersAbsent where
  bounded := Nat.zero_le _
  distinct := List.nodup_nil
  absent := fun _ hcid => absurd hcid List.not_mem_nil

/-- In a run that never removes a connection whose guest is already remembered or
connected again, the disconnected records are bounded, one for each guest, and of
absent guests, and a guest is forgotten only for as many others. -/
theorem remembers_absent (medium : Medium) (setup : Setup) (ls : List Label)
    (h : Lts.Steps (step medium) RetiresUnknown (init setup) ls) :
    Lts.States (step medium) RemembersAbsent (init setup) ls ∧
      Lts.Steps (step medium) (ForgetsForOthers medium) (init setup) ls := by
  have hstep : ∀ c l c', (∃ v, c.Sees v ∧ ∀ b, (v b).RemembersAbsent) → c.RetiresUnknown l →
      step medium c l = some c' →
        ForgetsForOthers medium c l ∧ ∃ v, c'.Sees v ∧ ∀ b, (v b).RemembersAbsent := by
    rintro c l c' ⟨v, hv, habsent⟩ hsafe hstep
    constructor
    · intro c'' hstep' b
      obtain ⟨v', hv', hcases⟩ := step_cases hv hstep'
      rw [hv.views b, hv'.views b]
      exact (hcases.remembers hv hsafe habsent b).forgets
    · obtain ⟨v', hv', hcases⟩ := step_cases hv hstep
      exact ⟨v', hv', fun b => (hcases.remembers hv hsafe habsent b).absent⟩
  have hinit : ∃ v, (init setup).Sees v ∧ ∀ b, (v b).RemembersAbsent :=
    ⟨initialView, init_sees setup, initialView_absent⟩
  constructor
  · have hstates := Lts.states_of_steps
      (fun c l c' hi hsafe hs => (hstep c l c' hi hsafe hs).2) hinit h
    refine hstates.mono ?_
    rintro c ⟨v, hv, habsent⟩ b
    rw [hv.views b]
    exact Registry.server_remembersAbsent (habsent b)
  · exact Lts.steps_of_steps hstep hinit h

/-- A client connects and leaves. -/
theorem remembers_absent_one :
    Lts.States (step Medium.uniform) RemembersAbsent (init Setup.tcp)
      (Label.joins ⟨10, [], []⟩ ⟨0x020010AC, 0⟩ 3 ++ Label.speaks 10 3) := by
  refine (remembers_absent Medium.uniform Setup.tcp _ ?_).1
  apply Lts.steps_of_stepsCheck (q := fun c l =>
    match c.phase, l with
    | .forward srcIsSpy i, _ =>
      ((c.server.registry srcIsSpy).entries[i]?).all fun e =>
        decide (e.cid ∉ (c.server.registry srcIsSpy).remembered ∧
          e.cid ∉ liveCids ((c.server.registry srcIsSpy).entries.eraseIdx i))
    | .order, .order _ _ => false
    | _, _ => true)
  · intro c l hcheck
    unfold RetiresUnknown
    split
    · rename_i srcIsSpy i hphase
      intro e he _
      simp only [hphase, he, Option.all_some, decide_eq_true_eq] at hcheck
      exact hcheck
    · rename_i hphase
      simp [hphase] at hcheck
    · trivial
  · decide +kernel

/-- A reconnect leaves the record of the displaced connection beside the live one. -/
theorem remembers_absent_fails :
    ¬ Lts.States (step Medium.uniform) (fun c => c.phase = .wait → c.RemembersAbsent)
      (init Setup.tcp)
      (Label.joins ⟨10, [], []⟩ ⟨0x020010AC, 0⟩ 3 ++
        Label.joins ⟨11, [], []⟩ ⟨0x020010AC, 0⟩ 4) := by
  intro h
  have hrun : (Lts.run (step Medium.uniform) (init Setup.tcp)
      (Label.joins ⟨10, [], []⟩ ⟨0x020010AC, 0⟩ 3 ++
        Label.joins ⟨11, [], []⟩ ⟨0x020010AC, 0⟩ 4)).map
      (fun c => (c.phase, (c.server.registry false).remembered,
        liveCids (c.server.registry false).entries)) = some (.wait, [4780], [4780]) := by
    decide +kernel
  obtain ⟨c, hc, hvalues⟩ := Option.map_eq_some_iff.mp hrun
  obtain ⟨hphase, hvalues⟩ := Prod.mk.inj hvalues
  obtain ⟨hremembered, hlive⟩ := Prod.mk.inj hvalues
  have habsent := (h.last hc hphase false).absent 4780
  rw [hremembered, hlive] at habsent
  exact habsent List.mem_cons_self List.mem_cons_self

end Config

end Vwifi
