import Vwifi.Step

/-!
# One connection for each CID

`Accept` looks for a CID among the disconnected records first, and disables the
old connection only when it finds none there. So a CID stays unique exactly as
long as no client connects while its CID is both live and recorded.
-/

namespace Vwifi

set_option autoImplicit false

/-- The CIDs of the enabled entries. -/
def liveCids (es : List Entry) : List TCID := (es.filter Entry.enabled).map Entry.cid

theorem mem_liveCids {es : List Entry} {cid : TCID} :
    cid ∈ liveCids es ↔ ∃ e ∈ es, e.isLive cid = true := by
  simp only [liveCids, List.mem_map, List.mem_filter, Entry.isLive_iff, and_assoc]

theorem liveCids_append (es fs : List Entry) :
    liveCids (es ++ fs) = liveCids es ++ liveCids fs := by
  rw [liveCids, List.filter_append, List.map_append]
  rfl

theorem countP_isLive (cid : TCID) (es : List Entry) :
    es.countP (Entry.isLive cid) = (liveCids es).count cid := by
  rw [liveCids, List.count, List.countP_map, List.countP_filter]
  apply List.countP_congr
  intro e _
  simp [Entry.isLive, and_comm]

theorem nodup_append_singleton {l : List TCID} {cid : TCID} :
    (l ++ [cid]).Nodup ↔ cid ∉ l ∧ l.Nodup :=
  (List.perm_append_singleton cid l).nodup_iff.trans List.nodup_cons

theorem liveCids_weakened {es es' : List Entry} (h : List.Forall₂ Entry.Weakened es es') :
    (liveCids es').Sublist (liveCids es) := by
  induction h with
  | nil => exact List.Sublist.refl _
  | @cons e e' es es' h _ ih =>
    rw [liveCids, liveCids, List.filter_cons, List.filter_cons]
    by_cases he' : e'.enabled
    · have hcid : e'.cid = e.cid := congrArg CInfoWifi.cid h.info
      rw [if_pos he', if_pos (h.enabled he'), List.map_cons, List.map_cons, hcid]
      exact ih.cons_cons _
    · rw [if_neg he']
      split
      · exact ih.cons _
      · exact ih

theorem liveCids_amend (es : List Entry) (i : Nat) {f : CInfoWifi → CInfoWifi}
    (hf : ∀ w, (f w).cid = w.cid) : liveCids (es.modify i (Entry.amend f)) = liveCids es := by
  induction es generalizing i with
  | nil => simp
  | cons e es ih =>
    cases i with
    | zero =>
      have hcid : (e.amend f).cid = e.cid := hf e.info
      have henabled : (e.amend f).enabled = e.enabled := rfl
      rw [List.modify_zero_cons, liveCids, liveCids, List.filter_cons, List.filter_cons, henabled]
      split
      · rw [List.map_cons, List.map_cons, hcid]
      · rfl
    | succ i =>
      have htail := ih i
      rw [liveCids, liveCids] at htail
      rw [List.modify_succ_cons, liveCids, liveCids, List.filter_cons, List.filter_cons]
      split
      · rw [List.map_cons, List.map_cons, htail]
      · exact htail

theorem liveCids_displace {cid : TCID} {es : List Entry} {e : Entry}
    (h : es.find? (Entry.isLive cid) = some e) :
    ∃ xs ys, liveCids es = xs ++ cid :: ys ∧ liveCids (displace cid es) = xs ++ ys := by
  obtain ⟨before, after, hes, hdis, hlive, _⟩ := displace_split h
  obtain ⟨henabled, hcid⟩ := Entry.isLive_iff.mp hlive
  refine ⟨liveCids before, liveCids after, ?_, ?_⟩
  · rw [hes, liveCids_append, ← hcid]
    congr 1
    rw [liveCids, List.filter_cons, if_pos henabled]
    rfl
  · rw [hdis, liveCids_append]
    congr 1

namespace Registry

variable {r r' : Registry} {d : TDescriptor} {cid : TCID}

theorem liveCids_add (r : Registry) (d : TDescriptor) (w : CInfoWifi) :
    liveCids (r.add d w).entries = liveCids r.entries ++ [w.cid] := liveCids_append _ _

/-- A connection leaves the live CIDs distinct exactly when its CID is not live
and recorded at once. -/
theorem connect_nodup_iff (h : r.connect d cid = some r') (hnodup : (liveCids r.entries).Nodup) :
    (liveCids r'.entries).Nodup ↔ (cid ∈ liveCids r.entries → ∀ w ∈ r.stored, w.cid ≠ cid) := by
  unfold connect at h
  cases hstored : r.stored.find? (·.cid = cid) with
  | some w =>
    rw [hstored] at h
    cases h
    have hw : w.cid = cid := by simpa using List.find?_some hstored
    have hmem := List.mem_of_find?_eq_some hstored
    rw [liveCids_add, hw, nodup_append_singleton]
    constructor
    · rintro ⟨hnot, _⟩ hlive
      exact absurd hlive hnot
    · intro hsafe
      exact ⟨fun hlive => hsafe hlive w hmem hw, hnodup⟩
  | none =>
    have hsafe : ∀ w ∈ r.stored, w.cid ≠ cid := by
      intro w hw
      simpa using List.find?_eq_none.mp hstored w hw
    rw [hstored] at h
    refine ⟨fun _ _ => hsafe, fun _ => ?_⟩
    cases hlive : r.entries.find? (Entry.isLive cid) with
    | some e =>
      simp only [hlive] at h
      cases h
      have he : e.info.cid = cid := (Entry.isLive_iff.mp (List.find?_some hlive)).2
      obtain ⟨xs, ys, hbefore, hafter⟩ := liveCids_displace hlive
      rw [liveCids_add, he]
      rw [hbefore] at hnodup
      rw [hafter]
      have hperm : List.Perm (xs ++ cid :: ys) (xs ++ ys ++ [cid]) := by
        rw [List.append_assoc]
        exact List.Perm.append_left xs (List.perm_append_singleton cid ys).symm
      exact hperm.nodup_iff.mp hnodup
    | none =>
      simp only [hlive] at h
      obtain ⟨w, hw, rfl⟩ := Option.map_eq_some_iff.mp h
      have hcid : w.cid = cid := CInfoWifi.setCid_cid hw
      have hnot : cid ∉ liveCids r.entries := by
        intro hmem
        obtain ⟨e, he, hcontra⟩ := mem_liveCids.mp hmem
        exact absurd hcontra (List.find?_eq_none.mp hlive e he)
      rw [liveCids_add, hcid, nodup_append_singleton]
      exact ⟨hnot, hnodup⟩

theorem liveCids_storeCoordinate (r : Registry) (w : CInfoWifi) :
    liveCids (r.storeCoordinate w).entries = liveCids r.entries := by
  unfold storeCoordinate
  split
  · exact liveCids_amend _ _ fun _ => rfl
  · split <;> rfl

theorem liveCids_storeName {name : CString} (h : r.storeName cid name = some r') :
    liveCids r'.entries = liveCids r.entries := by
  unfold storeName at h
  split at h
  · cases h
    exact liveCids_amend _ _ fun w => CInfoWifi.setName_cid w name
  · obtain ⟨i, _, rfl⟩ := Option.map_eq_some_iff.mp h
    rfl

end Registry

namespace Config

/-- Without an accepted connection no CID becomes live. -/
theorem Change.liveCids_sublist {r r' : Registry} (h : Change r none r') :
    (liveCids r'.entries).Sublist (liveCids r.entries) := by
  cases h with
  | weakened h => exact liveCids_weakened h
  | @retired before after e h =>
    rw [h]
    exact ((List.sublist_cons_self e after).append_left before).filter _ |>.map _
  | coordinate w => rw [Registry.liveCids_storeCoordinate]
  | name cid name h => rw [Registry.liveCids_storeName h]
  | entryName i name =>
    have hcids := liveCids_amend r.entries i fun w => CInfoWifi.setName_cid w name
    exact hcids ▸ List.Sublist.refl _
  | cleared => exact List.nil_sublist _

/-- At most one entry of the clients' registry is enabled with a CID. -/
def OneConnection (c : Config) : Prop :=
  ∀ cid, c.server.wifiServer.entries.countP (Entry.isLive cid) ≤ 1

/-- The `Accept` of a client leaves no other enabled connection of its CID. -/
def DisplacesOlder (medium : Medium) (c : Config) (l : Label) : Prop :=
  ∀ inc cid c', c.acceptOf l false = some (inc, cid) → step medium c l = some c' →
    (c'.server.wifiServer.entries.filter (Entry.isLive cid)).map Entry.descriptor =
      [inc.descriptor]

/-- No client connects while its CID is both live and among the disconnected records. -/
def ReconnectSafe (c : Config) (l : Label) : Prop :=
  ∀ inc cid, c.acceptOf l false = some (inc, cid) →
    (∃ e ∈ c.server.wifiServer.entries, e.isLive cid = true) →
      ∀ w ∈ c.server.wifiServer.infoWifisDeconnected, w.cid ≠ cid

variable {medium : Medium} {c c' : Config} {l : Label} {v : Bool → Registry}

theorem oneConnection_iff (hv : c.Sees v) :
    c.OneConnection ↔ (liveCids (v false).entries).Nodup := by
  rw [List.nodup_iff_count, OneConnection, hv.entries]
  exact forall_congr' fun cid => by rw [countP_isLive]

theorem reconnectSafe_iff (hv : c.Sees v) :
    c.ReconnectSafe l ↔ ∀ inc cid, c.acceptOf l false = some (inc, cid) →
      cid ∈ liveCids (v false).entries → ∀ w ∈ (v false).stored, w.cid ≠ cid := by
  rw [ReconnectSafe, hv.entries, hv.stored]
  simp only [mem_liveCids]

/-- One step keeps the connections unique exactly when it is a safe one. -/
theorem step_oneConnection (hv : c.Sees v) (h : step medium c l = some c')
    (hone : c.OneConnection) : c'.OneConnection ↔ c.ReconnectSafe l := by
  obtain ⟨v', hv', hcases⟩ := step_cases hv h
  rw [oneConnection_iff hv] at hone
  rw [oneConnection_iff hv', reconnectSafe_iff hv]
  have hchange := hcases.change false
  cases haccept : c.acceptOf l false with
  | none =>
    rw [haccept] at hchange
    constructor
    · intro _ inc cid hcontra
      cases hcontra
    · intro _
      exact hone.sublist hchange.liveCids_sublist
  | some p =>
    obtain ⟨inc, cid⟩ := p
    rw [haccept] at hchange
    cases hchange with
    | connected hconnect =>
      rw [Registry.connect_nodup_iff hconnect hone]
      constructor
      · intro hsafe inc' cid' heq
        cases heq
        exact hsafe
      · intro hsafe
        exact hsafe inc cid rfl

theorem step_displacesOlder (hv : c.Sees v) (hone : c.OneConnection)
    (hsafe : c.ReconnectSafe l) : DisplacesOlder medium c l := by
  intro inc cid c' haccept h
  obtain ⟨v', hv', hcases⟩ := step_cases hv h
  have hone' := (step_oneConnection hv h hone).mpr hsafe cid
  have hchange := hcases.change false
  rw [haccept] at hchange
  cases hchange with
  | connected hconnect =>
    obtain ⟨es, w, hlast, hw, _⟩ := connect_entries hconnect
    have he : (⟨⟨inc.descriptor, true⟩, w⟩ : Entry) ∈ (v' false).entries := by
      rw [hlast]
      exact List.mem_append_right _ List.mem_cons_self
    have hlive : Entry.isLive cid ⟨⟨inc.descriptor, true⟩, w⟩ = true :=
      Entry.isLive_iff.mpr ⟨rfl, hw⟩
    rw [hv'.entries] at hone' ⊢
    rw [List.countP_eq_length_filter] at hone'
    have hmem := List.mem_filter.mpr ⟨he, hlive⟩
    obtain ⟨a, hsingle⟩ := List.length_eq_one_iff.mp
      (Nat.le_antisymm hone' (List.length_pos_of_mem hmem))
    rw [hsingle] at hmem ⊢
    rw [← List.mem_singleton.mp hmem, List.map_singleton]
    rfl

/-- A run whose every `Accept` is safe goes through states with unique connections. -/
theorem states_oneConnection {setup : Setup} {ls : List Label}
    (h : Lts.Steps (step medium) ReconnectSafe (init setup) ls) :
    Lts.States (step medium) (fun c => c.OneConnection ∧ ∃ v, c.Sees v) (init setup) ls := by
  have hinit : (init setup).OneConnection := by
    intro cid
    exact Nat.zero_le _
  refine Lts.states_of_steps ?_ ⟨hinit, initialView, init_sees setup⟩ h
  rintro c l c' ⟨hone, v, hv⟩ hsafe hstep
  obtain ⟨v', hv', _⟩ := step_cases hv hstep
  exact ⟨(step_oneConnection hv hstep hone).mpr hsafe, v', hv'⟩

/-- In a run every state has at most one connection for each CID, and every
`Accept` replaces the older one, exactly when every `Accept` of the run is safe. -/
theorem one_connection_iff (medium : Medium) (setup : Setup) (ls : List Label) :
    (Lts.States (step medium) OneConnection (init setup) ls ∧
        Lts.Steps (step medium) (DisplacesOlder medium) (init setup) ls) ↔
      Lts.Steps (step medium) ReconnectSafe (init setup) ls := by
  constructor
  · rintro ⟨hstates, _⟩
    refine Lts.steps_of_states ?_ (hstates.and (states_sees medium setup ls))
    rintro c l c' ⟨hone, v, hv⟩ ⟨hone', _⟩ h
    exact (step_oneConnection hv h hone).mp hone'
  · intro hsteps
    have hstates := states_oneConnection hsteps
    refine ⟨hstates.mono fun _ h => h.1, ?_⟩
    have hboth := (Lts.steps_of_states (fun c l c' h _ _ => h) hstates).and hsteps
    refine hboth.mono ?_
    rintro c l ⟨⟨hone, v, hv⟩, hsafe⟩
    exact step_displacesOlder hv hone hsafe

/-- The third connection from one address finds the record of the first, so the
second stays enabled beside it. -/
theorem one_connection_fails :
    ¬ Lts.States (step Medium.uniform) OneConnection (init Setup.tcp)
      (Label.joins ⟨10, [], []⟩ ⟨0x020010AC, 0⟩ 3 ++ Label.joins ⟨11, [], []⟩ ⟨0x020010AC, 0⟩ 4 ++
        Label.joins ⟨12, [], []⟩ ⟨0x020010AC, 0⟩ 4) := by
  intro h
  have hrun : (Lts.run (step Medium.uniform) (init Setup.tcp)
      (Label.joins ⟨10, [], []⟩ ⟨0x020010AC, 0⟩ 3 ++ Label.joins ⟨11, [], []⟩ ⟨0x020010AC, 0⟩ 4 ++
        Label.joins ⟨12, [], []⟩ ⟨0x020010AC, 0⟩ 4)).map
      (fun c => c.server.wifiServer.entries.countP (Entry.isLive 4780)) = some 2 := by
    decide +kernel
  obtain ⟨c, hc, hcount⟩ := Option.map_eq_some_iff.mp hrun
  have hone := h.last hc 4780
  rw [hcount] at hone
  exact absurd hone (by decide)

end Config

end Vwifi
