import Vwifi.Reconnect

/-!
# Looking up a CID

`GetReferenceOnInfoWifiByCID` takes the first entry of a CID and does not look
at its enable flag, so it finds the live connection as long as no disabled entry
of that CID stands before it. Disabled entries are removed by the next pass over
the clients: what an order finds depends on what was accepted in the same
iteration, before the order.
-/

namespace Vwifi

set_option autoImplicit false

def cids (es : List Entry) : List TCID := es.map Entry.cid

theorem cids_append (es fs : List Entry) : cids (es ++ fs) = cids es ++ cids fs :=
  List.map_append

theorem liveCids_sublist_cids (es : List Entry) : (liveCids es).Sublist (cids es) :=
  List.filter_sublist.map _

theorem cids_weakened {es es' : List Entry} (h : List.Forall₂ Entry.Weakened es es') :
    cids es' = cids es := by
  induction h with
  | nil => rfl
  | cons h _ ih =>
    rw [cids, cids, List.map_cons, List.map_cons]
    exact congrArg₂ List.cons (congrArg CInfoWifi.cid h.info) ih

theorem cids_amend (es : List Entry) (i : Nat) {f : CInfoWifi → CInfoWifi}
    (hf : ∀ w, (f w).cid = w.cid) : cids (es.modify i (Entry.amend f)) = cids es := by
  induction es generalizing i with
  | nil => simp
  | cons e es ih =>
    cases i with
    | zero =>
      rw [List.modify_zero_cons, cids, cids, List.map_cons, List.map_cons]
      exact congrArg (· :: es.map Entry.cid) (hf e.info)
    | succ i =>
      have htail := ih i
      rw [cids, cids] at htail
      rw [List.modify_succ_cons, cids, cids, List.map_cons, List.map_cons, htail]

/-- The CIDs that are still in use when a pass over the entries has come to the
place `i`: those of the entries it has left behind it, and the live ones ahead. -/
def cidsFrom (es : List Entry) (i : Nat) : List TCID := cids (es.take i) ++ liveCids (es.drop i)

theorem cidsFrom_zero (es : List Entry) : cidsFrom es 0 = liveCids es := rfl

theorem cidsFrom_of_length_le {es : List Entry} {i : Nat} (h : es.length ≤ i) :
    cidsFrom es i = cids es := by
  rw [cidsFrom, List.take_of_length_le h, List.drop_of_length_le h]
  exact List.append_nil _

theorem cidsFrom_append (before after : List Entry) :
    cidsFrom (before ++ after) before.length = cids before ++ liveCids after := by
  rw [cidsFrom, List.take_left, List.drop_left]

theorem cidsFrom_sublist_cids (es : List Entry) (i : Nat) : (cidsFrom es i).Sublist (cids es) := by
  have hsplit := cids_append (es.take i) (es.drop i)
  rw [List.take_append_drop] at hsplit
  rw [hsplit, cidsFrom]
  exact (liveCids_sublist_cids _).append_left _

theorem liveCids_sublist_cidsFrom (es : List Entry) (i : Nat) :
    (liveCids es).Sublist (cidsFrom es i) := by
  have hsplit := liveCids_append (es.take i) (es.drop i)
  rw [List.take_append_drop] at hsplit
  rw [hsplit, cidsFrom]
  exact (liveCids_sublist_cids _).append_right _

/-- With distinct CIDs the lookup of an entry's CID ends at that entry. -/
theorem findIdx?_of_nodup {es : List Entry} {i : Nat} {e : Entry} (h : (cids es).Nodup)
    (he : es[i]? = some e) : es.findIdx? (·.cid = e.cid) = some i := by
  obtain ⟨hi, rfl⟩ := List.getElem?_eq_some_iff.mp he
  refine List.findIdx?_eq_some_iff_getElem.mpr ⟨hi, by simp, ?_⟩
  intro j hj
  have hne := List.pairwise_iff_getElem.mp (List.pairwise_map.mp h) j i (Nat.lt_trans hj hi) hi hj
  simpa using hne

namespace Registry

variable {r r' : Registry} {d : TDescriptor} {cid : TCID}

theorem connect_cids (h : r.connect d cid = some r') :
    cids r'.entries = cids r.entries ++ [cid] := by
  obtain ⟨es, w, hentries, hw, hweakened⟩ := Config.connect_entries h
  rw [hentries, cids_append, cids_weakened hweakened]
  exact congrArg (cids r.entries ++ [·]) hw

theorem cids_storeCoordinate (r : Registry) (w : CInfoWifi) :
    cids (r.storeCoordinate w).entries = cids r.entries := by
  unfold storeCoordinate
  split
  · exact cids_amend _ _ fun _ => rfl
  · split <;> rfl

theorem cids_storeName {name : CString} (h : r.storeName cid name = some r') :
    cids r'.entries = cids r.entries := by
  unfold storeName at h
  split at h
  · cases h
    exact cids_amend _ _ fun w => CInfoWifi.setName_cid w name
  · obtain ⟨i, _, rfl⟩ := Option.map_eq_some_iff.mp h
    rfl

end Registry

namespace Config

/-- Without an accepted connection no CID is added. -/
theorem Change.cids_sublist {r r' : Registry} (h : Change r none r') :
    (cids r'.entries).Sublist (cids r.entries) := by
  cases h with
  | @weakened es h =>
    have hcids : cids es = cids r.entries := cids_weakened h
    exact hcids ▸ List.Sublist.refl _
  | @retired before after e h =>
    rw [h]
    exact ((List.sublist_cons_self e after).append_left before).map _
  | coordinate w => rw [Registry.cids_storeCoordinate]
  | name cid name h => rw [Registry.cids_storeName h]
  | entryName i name =>
    have hcids := cids_amend r.entries i fun w => CInfoWifi.setName_cid w name
    exact hcids ▸ List.Sublist.refl _
  | cleared => exact List.nil_sublist _

section Pass

variable {medium : Medium} {r q r' q' : Registry} {g g' : Globals} {before after : List Entry}
  {e : Entry} {i : TIndex}

/-- A round of the pass over the clients adds no CID to those in use. -/
theorem visit_cidsFrom (h : Pass.VisitCases medium false r q g before e after r' q' g' i)
    (hentries : r.entries = before ++ e :: after) :
    (cidsFrom r'.entries i).Sublist (cidsFrom r.entries before.length) := by
  have hhead : cidsFrom r.entries before.length = cids before ++ liveCids (e :: after) := by
    rw [hentries, cidsFrom_append]
  have hlive : e.enabled = true → liveCids (e :: after) = e.cid :: liveCids after := by
    intro henabled
    rw [liveCids, List.filter_cons, if_pos henabled]
    rfl
  have hnext : ∀ before' after' : List Entry, List.Forall₂ Entry.Weakened before before' →
      List.Forall₂ Entry.Weakened after after' → e.enabled = true →
      (cidsFrom (before' ++ e :: after') (before.length + 1)).Sublist
        (cids before ++ liveCids (e :: after)) := by
    intro before' after' hbefore hafter henabled
    have hsplit := cidsFrom_append (before' ++ [e]) after'
    rw [List.length_append, List.length_singleton, ← hbefore.length_eq, List.append_assoc,
      List.singleton_append] at hsplit
    rw [hsplit, cids_append, cids_weakened hbefore, hlive henabled, List.append_assoc]
    exact ((liveCids_weakened hafter).cons_cons e.cid).append_left _
  rw [hhead]
  cases h with
  | disabled h =>
    rw [Registry.retire, cidsFrom_append, liveCids, liveCids, List.filter_cons,
      if_neg (by rw [h]; exact Bool.false_ne_true)]
  | unreadable h =>
    rw [Registry.retire, cidsFrom_append, hlive h]
    exact (List.sublist_cons_self _ _).append_left _
  | idle h =>
    rw [hentries]
    exact hnext before after (List.forall₂_same.mpr fun a _ => Entry.Weakened.refl a)
      (List.forall₂_same.mpr fun a _ => Entry.Weakened.refl a) h
  | forwarded h _ _ hbefore hafter =>
    exact hnext _ _ hbefore.weakened hafter.weakened h

end Pass

/-! ## Runs -/

def ctrlReady (c : Config) : Bool := c.server.hasAction c.server.ctrl.master

/-- No client connects while its CID has an entry and an order is waiting to be
served; nor, without an order, while its CID is live and recorded at once. -/
def LookupSafe (c : Config) (l : Label) : Prop :=
  ∀ inc cid, c.acceptOf l false = some (inc, cid) →
    if c.ctrlReady then ∀ e ∈ c.server.wifiServer.entries, e.cid ≠ cid
    else (∃ e ∈ c.server.wifiServer.entries, e.isLive cid = true) →
      ∀ w ∈ c.server.wifiServer.infoWifisDeconnected, w.cid ≠ cid

/-- How many entries have no disabled one of the same CID before them that the
next order could find. -/
def passed (c : Config) (es : List Entry) : Nat :=
  match c.phase with
  | .wait => es.length
  | .forward false i => i
  | .forward true _ => es.length
  | _ => if c.ctrlReady then es.length else 0

/-- The invariant of the loop. -/
def Distinct (c : Config) (v : Bool → Registry) : Prop :=
  (cidsFrom (v false).entries (c.passed (v false).entries)).Nodup

variable {medium : Medium} {c c' : Config} {l : Label} {v v' : Bool → Registry}

theorem Distinct.live (h : c.Distinct v) : (liveCids (v false).entries).Nodup :=
  (liveCids_sublist_cidsFrom _ _).nodup h

theorem Distinct.all (h : c.Distinct v)
    (hpassed : c.passed (v false).entries = (v false).entries.length) :
    (cids (v false).entries).Nodup := by
  rw [Distinct, hpassed, cidsFrom_of_length_le (Nat.le_refl _)] at h
  exact h

theorem distinct_of_all (h : (cids (v false).entries).Nodup) : c.Distinct v :=
  (cidsFrom_sublist_cids _ _).nodup h

theorem distinct_of_live (hpassed : c.passed (v false).entries = 0)
    (h : (liveCids (v false).entries).Nodup) : c.Distinct v := by
  rw [Distinct, hpassed, cidsFrom_zero]
  exact h

/-- The CIDs after a safe `Accept` of a client, with the order still to come. -/
theorem distinct_connect {phase : Phase} {s : Server} {inc : Incoming} {cid : TCID} {r : Registry}
    (hv : Sees ⟨phase, s⟩ v) (hdistinct : Distinct ⟨phase, s⟩ v)
    (hpassed : passed ⟨phase, s⟩ (v false).entries =
      if ctrlReady ⟨phase, s⟩ then (v false).entries.length else 0)
    (haccept : acceptOf ⟨phase, s⟩ l false = some (inc, cid)) (hsafe : LookupSafe ⟨phase, s⟩ l)
    (hconnect : (v false).connect inc.descriptor cid = some r) :
    if ctrlReady ⟨phase, s⟩ then (cids r.entries).Nodup else (liveCids r.entries).Nodup := by
  have hif := hsafe inc cid haccept
  rw [hv.entries, hv.stored] at hif
  split
  · rename_i hready
    rw [if_pos hready] at hpassed hif
    rw [Registry.connect_cids hconnect, nodup_append_singleton]
    refine ⟨?_, hdistinct.all hpassed⟩
    intro hmem
    obtain ⟨e, he, hcid⟩ := List.mem_map.mp hmem
    exact hif e he hcid
  · rename_i hready
    rw [if_neg hready] at hif
    refine (Registry.connect_nodup_iff hconnect hdistinct.live).mpr ?_
    intro hmem
    exact hif (mem_liveCids.mp hmem)

theorem StepCases.distinct (h : StepCases medium c l v c' v') (hv : c.Sees v)
    (hsafe : c.LookupSafe l) (hdistinct : c.Distinct v) : c'.Distinct v' := by
  have hlive := hdistinct.live
  obtain ⟨phase, s⟩ := c
  cases h with
  | select r hphase hl =>
    have hphase' : phase = .wait := hphase
    subst hphase'
    exact distinct_of_all (hdistinct.all rfl)
  | skip hskip hl =>
    have hskip' : Skips s phase _ := hskip
    cases hskip' with
    | vtcp => exact hdistinct
    | itcp => exact hdistinct
    | spy => exact hdistinct
    | order => exact distinct_of_live rfl hlive
    | forwarded srcIsSpy i hi =>
      apply distinct_of_all
      cases srcIsSpy with
      | false =>
        have hlen : (v false).entries.length ≤ i := by
          have hwifi : s.registry false = (v false).server := hv.views false
          rw [hwifi, Registry.server_getNumberClient] at hi
          exact hi
        have hall : (cidsFrom (v false).entries i).Nodup := hdistinct
        rw [cidsFrom_of_length_le hlen] at hall
        exact hall
      | true => exact hdistinct.all rfl
  | @accept phase' isSpy inc cid r haccept hunused hconnect =>
    have hof := haccept.acceptOf false
    have haccept' : Accepts s phase l phase' isSpy inc cid := haccept
    have hmiddle : ∀ es, passed ⟨phase', s.connected isSpy inc r⟩ es =
        if ctrlReady ⟨phase, s⟩ then es.length else 0 := by
      cases haccept' <;> intro es <;> rfl
    have hpassed : ∀ es, passed ⟨phase, s⟩ es =
        if ctrlReady ⟨phase, s⟩ then es.length else 0 := by
      cases haccept' <;> intro es <;> rfl
    cases isSpy with
    | true =>
      rw [Distinct, hmiddle, Function.update_of_ne (by decide), ← hpassed]
      exact hdistinct
    | false =>
      rw [if_pos rfl] at hof
      have hconnected := distinct_connect hv hdistinct (hpassed _) hof hsafe hconnect
      rw [Distinct, hmiddle, Function.update_self]
      split
      · rename_i hready
        rw [if_pos hready] at hconnected
        rw [cidsFrom_of_length_le (Nat.le_refl _)]
        exact hconnected
      · rename_i hready
        rw [if_neg hready] at hconnected
        exact hconnected
  | order hphase hl hready hunused hreceived =>
    have hchange := ordered_change hreceived.ordered false
    exact distinct_of_live rfl (hchange.liveCids_sublist.nodup hlive)
  | @visit srcIsSpy before after e r q g i hphase hl hentries hcases =>
    have hphase' : phase = .forward srcIsSpy before.length := hphase
    subst hphase'
    cases srcIsSpy with
    | false => exact (visit_cidsFrom hcases hentries).nodup hdistinct
    | true =>
      have hchange := visit_change_other hcases
      exact distinct_of_all (hchange.cids_sublist.nodup (hdistinct.all rfl))

end Config

/-! ## What an order finds -/

/-- The lookup of an enabled connection's CID ends at that connection: so do the
orders that change its record, and the question for a distance. -/
structure Server.FindsLive (s : Server) (i : TIndex) (e : Entry) : Prop where
  reference : s.wifiServer.getReferenceOnInfoWifiByCID e.cid = some i
  coordinate : ∀ coo, ∃ s', s.storeCoordinate e.cid coo = some s' ∧
    s'.wifiServer.entries = s.wifiServer.entries.modify i (Entry.amend (·.set coo))
  name : ∀ name, (s.storeName e.cid name).wifiServer.entries =
    s.wifiServer.entries.modify i (Entry.amend (·.setName name))
  distance : s.findCoordinate e.cid = some e.info.toCCoordinate

theorem Server.findsLive_of_nodup {s : Server} {v : Bool → Registry} {i : TIndex} {e : Entry}
    (hv : s.Views v) (h : (cids (v false).entries).Nodup) (he : (v false).entries[i]? = some e) :
    s.FindsLive i e := by
  have hwifi : s.wifiServer = (v false).server := hv false
  have hfind : (v false).server.getReferenceOnInfoWifiByCID e.cid = some i := by
    rw [Registry.getReferenceOnInfoWifiByCID_server]
    exact findIdx?_of_nodup h he
  have hamend : ∀ f, (updateInfoWifi (v false).server i f).entries =
      (v false).entries.modify i (Entry.amend f) := by
    intro f
    rw [updateInfoWifi_server, Registry.server_entries]
    rfl
  refine ⟨by rw [hwifi, hfind], ?_, ?_, ?_⟩
  · intro coo
    simp only [storeCoordinate, hwifi, hfind]
    exact ⟨_, rfl, by rw [hamend, Registry.server_entries]⟩
  · intro name
    simp only [storeName, hwifi, hfind]
    rw [hamend, Registry.server_entries]
  · simp only [findCoordinate, hwifi, hfind, Registry.getElem?_infoWifis, he]
    rfl

namespace Config

/-- Where the loop is about to call `ReceiveOrder`, every enabled client is
found under its CID. -/
def OrdersFindLive (c : Config) : Prop :=
  c.phase = .order → c.ctrlReady = true →
    ∀ (i : TIndex) (e : Entry), c.server.wifiServer.entries[i]? = some e → e.enabled = true →
      c.server.FindsLive i e

/-- In a run whose every `Accept` of a client is safe, every order finds the live client. -/
theorem orders_find_live {medium : Medium} {setup : Setup} {ls : List Label}
    (hsafe : Lts.Steps (step medium) LookupSafe (init setup) ls) :
    Lts.States (step medium) OrdersFindLive (init setup) ls := by
  have hstates : Lts.States (step medium) (fun c => ∃ v, c.Sees v ∧ c.Distinct v)
      (init setup) ls := by
    refine Lts.states_of_steps ?_ ⟨initialView, init_sees setup, distinct_of_all List.nodup_nil⟩
      hsafe
    rintro c l c' ⟨v, hv, hdistinct⟩ hsafe h
    obtain ⟨v', hv', hcases⟩ := step_cases hv h
    exact ⟨v', hv', hcases.distinct hv hsafe hdistinct⟩
  refine hstates.mono ?_
  rintro c ⟨v, hv, hdistinct⟩ hphase hready i e he _
  rw [hv.entries] at he
  exact Server.findsLive_of_nodup hv.views
    (hdistinct.all (by rw [passed, hphase]; exact if_pos hready)) he

/-- A client connects, and another one in the iteration that serves an order. -/
theorem orders_find_live_two :
    Lts.States (step Medium.uniform) OrdersFindLive (init Setup.tcp)
      (Label.joins ⟨10, [], []⟩ ⟨0x020010AC, 0⟩ 3 ++
        [.select (.ready (fun d => d = 3 ∨ d = 5) 2), .skip,
          .connectIn ⟨11, [], []⟩ ⟨0x030010AC, 0⟩, .skip, .refused]) := by
  apply orders_find_live
  apply Lts.steps_of_stepsCheck (q := fun c l =>
    match c.acceptOf l false with
    | none => true
    | some p => c.server.wifiServer.entries.all (·.cid ≠ p.2))
  · intro c l hcheck inc cid haccept
    rw [haccept] at hcheck
    have hall : ∀ e ∈ c.server.wifiServer.entries, e.cid ≠ cid := by simpa using hcheck
    split
    · exact hall
    · rintro ⟨e, he, hlive⟩
      exact absurd (Entry.isLive_iff.mp hlive).2 (hall e he)
  · decide +kernel

/-- A client that reconnects in the iteration that serves the order: the order
finds the old, disabled entry. -/
theorem orders_find_live_fails :
    ¬ Lts.States (step Medium.uniform) OrdersFindLive (init Setup.tcp)
      (Label.joins ⟨10, [], []⟩ ⟨0x020010AC, 0⟩ 3 ++
        [.select (.ready (fun d => d = 3 ∨ d = 5) 2), .skip,
          .connectIn ⟨11, [], []⟩ ⟨0x020010AC, 0⟩, .skip]) := by
  intro h
  have hrun : (Lts.run (step Medium.uniform) (init Setup.tcp)
      (Label.joins ⟨10, [], []⟩ ⟨0x020010AC, 0⟩ 3 ++
        [.select (.ready (fun d => d = 3 ∨ d = 5) 2), .skip,
          .connectIn ⟨11, [], []⟩ ⟨0x020010AC, 0⟩, .skip])).map (fun c =>
      (c.phase, c.ctrlReady, (c.server.wifiServer.entries[1]?).map fun e => (e.enabled, e.cid),
        c.server.wifiServer.getReferenceOnInfoWifiByCID 4780)) =
      some (.order, true, some (true, 4780), some 0) := by
    decide +kernel
  obtain ⟨c, hc, hvalues⟩ := Option.map_eq_some_iff.mp hrun
  simp only [Prod.mk.injEq] at hvalues
  obtain ⟨hphase, hready, hentry, hfound⟩ := hvalues
  obtain ⟨e, he, hentry⟩ := Option.map_eq_some_iff.mp hentry
  simp only [Prod.mk.injEq] at hentry
  have hreference := (h.last hc hphase hready 1 e he hentry.1).reference
  rw [hentry.2, hfound] at hreference
  cases hreference

end Config

end Vwifi
