import Vwifi.Descriptors
import Vwifi.Lookup

/-!
# Which call of Accept a position comes from

`InfoSockets` and `InfoWifis` belong together by position alone. The run is
recorded with the calls of `Accept` made so far, and the two vectors of a
registry are what some of these calls pushed, in the order of the calls.
-/

namespace Vwifi

set_option autoImplicit false

/-- A call of `Accept` of a wifi server, with what it returned. -/
structure Accepted where
  isSpy : Bool
  descriptor : TDescriptor
  cid : TCID
deriving DecidableEq

/-- The last call that returned the descriptor. -/
def latest (history : List Accepted) (d : TDescriptor) : Option Accepted :=
  history.reverse.find? (·.descriptor = d)

theorem latest_append_of_ne {history calls : List Accepted} {d : TDescriptor}
    (h : ∀ a ∈ calls, a.descriptor ≠ d) : latest (history ++ calls) d = latest history d := by
  have hnone : calls.reverse.find? (·.descriptor = d) = none := by
    apply List.find?_eq_none.mpr
    intro a ha
    simpa using h a (List.mem_reverse.mp ha)
  rw [latest, List.reverse_append, List.find?_append, hnone, Option.none_or]
  rfl

theorem latest_append_self (history : List Accepted) (a : Accepted) :
    latest (history ++ [a]) a.descriptor = some a := by
  simp [latest]

/-- The k-th elements of the two vectors come from one call of `Accept`: the
descriptor is what the call returned last, and the record is that of its CID. -/
structure CWifiServer.Paired (history : List Accepted) (isSpy : Bool) (s : CWifiServer) :
    Prop where
  aligned : s.infoSockets.length = s.infoWifis.length
  stem : ∃ calls : List Accepted, calls.Sublist history ∧
    s.infoSockets.map CInfoSocket.descriptor = calls.map Accepted.descriptor ∧
    s.infoWifis.map CInfoWifi.cid = calls.map Accepted.cid ∧
    ∀ a ∈ calls, a.isSpy = isSpy ∧ latest history a.descriptor = some a

/-- What a step may do to a record: only an order updates it. -/
inductive CInfoWifi.Amended (ordered : Prop) (w : CInfoWifi) : CInfoWifi → Prop where
  | same : Amended ordered w w
  | coordinate (h : ordered) (coo : CCoordinate) : Amended ordered w (w.set coo)
  | name (h : ordered) (name : CString) : Amended ordered w (w.setName name)

theorem CInfoWifi.Amended.cid_eq {ordered : Prop} {w w' : CInfoWifi} (h : w.Amended ordered w') :
    w'.cid = w.cid := by
  cases h with
  | same => rfl
  | coordinate _ coo => exact CInfoWifi.set_cid w coo
  | name _ name => exact CInfoWifi.setName_cid w name

/-- The same connection, with its record possibly updated. -/
structure Entry.Stems (ordered : Prop) (e e' : Entry) : Prop where
  descriptor : e'.descriptor = e.descriptor
  info : e.info.Amended ordered e'.info

/-- The record a new connection starts with: the remembered one of its CID, that
of the connection it displaces, or a blank one. -/
def CWifiServer.Introduces (s : CWifiServer) (cid : TCID) (w : CInfoWifi) : Prop :=
  w.cid = cid ∧ (w ∈ s.infoWifisDeconnected ∨ (∃ e ∈ s.entries, e.isLive cid = true ∧ e.info = w) ∨
    w.toCCoordinate = CCoordinate.zero ∧ w.name = CString.empty)

/-- Every entry of `es'` continues one of `es`, and they stand in the same order. -/
def Inherits (R : Entry → Entry → Prop) (es es' : List Entry) : Prop :=
  ∃ kept : List Entry, kept.Sublist es ∧ List.Forall₂ R kept es'

/-- A step moves the two vectors of a registry together: what was at one position
in both is at one position in both, and what is new comes last. -/
def CWifiServer.Carries (ordered : Prop) (accepted : Option (Incoming × TCID))
    (s s' : CWifiServer) : Prop :=
  match accepted with
  | none => Inherits (Entry.Stems ordered) s.entries s'.entries
  | some (inc, cid) =>
    ∃ es w, s'.entries = es ++ [⟨⟨inc.descriptor, true⟩, w⟩] ∧ s.Introduces cid w ∧
      Inherits (Entry.Stems ordered) s.entries es

/-- The sender at each index is heard by the connection of each other position at
the level its own record gives. -/
def CWifiServer.AttenuatesByGuest (medium : Medium) (s : CWifiServer) : Prop :=
  ∀ (canLostPackets : Bool) (scale : TScale) (k : Kernel) (index : TIndex) (power : TPower)
    (data : List UInt8), index < s.getNumberClient →
    ∃ before sender after before' after' k' s' acts acts', s.entries = before ++ sender :: after ∧
      before.length = index ∧
      s.sendAllOtherClients medium canLostPackets scale k index power data = some (k', s') ∧
      s'.entries = before' ++ sender :: after' ∧
      Delivers canLostPackets (signalLevel medium scale sender.info.toCCoordinate power data) data
        before acts before' ∧
      Delivers canLostPackets (signalLevel medium scale sender.info.toCCoordinate power data) data
        after acts' after' ∧
      k.Writes k' (acts ++ acts')

/-! ## Positions -/

section Inheritance

variable {R : Entry → Entry → Prop} {ordered : Prop} {es es' : List Entry}

theorem inherits_of_forall₂ (h : List.Forall₂ R es es') : Inherits R es es' :=
  ⟨es, List.Sublist.refl es, h⟩

theorem Entry.Weakened.stems {e e' : Entry} (h : e.Weakened e') : e.Stems ordered e' where
  descriptor := h.descriptor
  info := h.info ▸ CInfoWifi.Amended.same

theorem inherits_of_weakened (h : List.Forall₂ Entry.Weakened es es') :
    Inherits (Entry.Stems ordered) es es' :=
  inherits_of_forall₂ (h.imp fun _ _ hw => Entry.Weakened.stems hw)

theorem inherits_refl (es : List Entry) : Inherits (Entry.Stems ordered) es es :=
  inherits_of_weakened (List.forall₂_same.mpr fun e _ => Entry.Weakened.refl e)

theorem inherits_retired {before after : List Entry} {e : Entry}
    (h : es = before ++ e :: after) : Inherits (Entry.Stems ordered) es (before ++ after) := by
  refine ⟨before ++ after, ?_, List.forall₂_same.mpr fun e _ => (Entry.Weakened.refl e).stems⟩
  rw [h]
  exact (List.sublist_cons_self e after).append_left before

theorem inherits_amend (i : Nat) {f : CInfoWifi → CInfoWifi}
    (hf : ∀ w : CInfoWifi, w.Amended ordered (f w)) :
    Inherits (Entry.Stems ordered) es (es.modify i (Entry.amend f)) := by
  apply inherits_of_forall₂
  induction es generalizing i with
  | nil =>
    rw [List.modify_nil]
    exact List.Forall₂.nil
  | cons e es ih =>
    cases i with
    | zero =>
      rw [List.modify_zero_cons]
      refine List.Forall₂.cons ⟨rfl, hf e.info⟩ ?_
      exact List.forall₂_same.mpr fun a _ => (Entry.Weakened.refl a).stems
    | succ i =>
      rw [List.modify_succ_cons]
      exact List.Forall₂.cons (Entry.Weakened.refl e).stems (ih i)

end Inheritance

namespace Config

/-- The calls of `Accept` a step makes. -/
def acceptedBy (c : Config) (l : Label) : List Accepted :=
  [false, true].filterMap fun b =>
    (c.acceptOf l b).map fun a => ⟨b, a.1.descriptor, a.2⟩

/-- The run with the calls of `Accept` made so far. -/
def stepRecorded (medium : Medium) (p : Config × List Accepted) (l : Label) :
    Option (Config × List Accepted) :=
  (step medium p.1 l).map fun c => (c, p.2 ++ p.1.acceptedBy l)

/-- The two vectors of both registries belong together, every step moves them
together, and a frame is attenuated with the coordinates of the guest it is sent to. -/
structure KeepsPaired (medium : Medium) (p : Config × List Accepted) : Prop where
  paired : ∀ b, (p.1.server.registry b).Paired p.2 b
  carries : ∀ l c', step medium p.1 l = some c' → ∀ b,
    CWifiServer.Carries (p.1.phase = .order) (p.1.acceptOf l b) (p.1.server.registry b)
      (c'.server.registry b)
  attenuates : ∀ b, (p.1.server.registry b).AttenuatesByGuest medium

/-- A change without a new connection keeps the pairs it does not remove. -/
theorem Change.inherits {r r' : Registry} {ordered : Prop} (h : Change r none r')
    (hordered : ordered) :
    Inherits (Entry.Stems ordered) r.entries r'.entries := by
  cases h with
  | weakened h => exact inherits_of_weakened h
  | retired h => exact inherits_retired h
  | coordinate w =>
    unfold Registry.storeCoordinate
    split
    · exact inherits_amend _ fun _ => CInfoWifi.Amended.coordinate hordered _
    · split <;> exact inherits_refl _
  | name cid name h =>
    unfold Registry.storeName at h
    split at h
    · cases h
      exact inherits_amend _ fun _ => CInfoWifi.Amended.name hordered _
    · obtain ⟨i, _, rfl⟩ := Option.map_eq_some_iff.mp h
      exact inherits_refl _
  | entryName i name => exact inherits_amend _ fun _ => CInfoWifi.Amended.name hordered _
  | cleared => exact ⟨[], List.nil_sublist _, List.Forall₂.nil⟩

/-- A round of a pass removes or disables, and updates no record. -/
theorem visit_inherits {medium : Medium} {srcIsSpy : Bool} {r q r' q' : Registry} {g g' : Globals}
    {before after : List Entry} {e : Entry} {i : TIndex} {ordered : Prop}
    (h : Pass.VisitCases medium srcIsSpy r q g before e after r' q' g' i)
    (hentries : r.entries = before ++ e :: after) :
    Inherits (Entry.Stems ordered) r.entries r'.entries ∧
      Inherits (Entry.Stems ordered) q.entries q'.entries := by
  cases h with
  | disabled => exact ⟨inherits_retired hentries, inherits_refl _⟩
  | unreadable => exact ⟨inherits_retired hentries, inherits_refl _⟩
  | idle => exact ⟨inherits_refl _, inherits_refl _⟩
  | forwarded _ _ _ hbefore hafter hothers =>
    refine ⟨?_, inherits_of_weakened hothers.weakened⟩
    rw [hentries]
    exact inherits_of_weakened (List.rel_append hbefore.weakened
      (List.Forall₂.cons (Entry.Weakened.refl e) hafter.weakened))

theorem connect_introduces {r r' : Registry} {d : TDescriptor} {cid : TCID}
    (h : r.connect d cid = some r') :
    ∃ es w, r'.entries = es ++ [⟨⟨d, true⟩, w⟩] ∧ r.server.Introduces cid w ∧
      List.Forall₂ Entry.Weakened r.entries es := by
  have hsame := List.forall₂_same.mpr fun (e : Entry) (_ : e ∈ r.entries) => Entry.Weakened.refl e
  unfold Registry.connect at h
  split at h
  · rename_i w hstored
    cases h
    have hcid : w.cid = cid := by simpa using List.find?_some hstored
    exact ⟨_, w, rfl, ⟨hcid, Or.inl (List.mem_of_find?_eq_some hstored)⟩, hsame⟩
  · split at h
    · rename_i e hlive
      cases h
      have hislive := List.find?_some hlive
      refine ⟨_, e.info, rfl, ⟨(Entry.isLive_iff.mp hislive).2,
        Or.inr (Or.inl ⟨e, ?_, hislive, rfl⟩)⟩,
        displace_weakened cid r.entries⟩
      rw [Registry.server_entries]
      exact List.mem_of_find?_eq_some hlive
    · obtain ⟨w, hw, rfl⟩ := Option.map_eq_some_iff.mp h
      have hblank : w.toCCoordinate = CCoordinate.zero ∧ w.name = CString.empty := by
        unfold CInfoWifi.setCid at hw
        split at hw
        · cases hw
          exact ⟨rfl, rfl⟩
        · cases hw
      exact ⟨_, w, rfl, ⟨CInfoWifi.setCid_cid hw, Or.inr (Or.inr hblank)⟩, hsame⟩

variable {medium : Medium} {c c' : Config} {l : Label} {v v' : Bool → Registry}

theorem StepCases.carries (h : StepCases medium c l v c' v') (hv : c.Sees v) (hv' : c'.Sees v')
    (b : Bool) :
    CWifiServer.Carries (c.phase = .order) (c.acceptOf l b) (c.server.registry b)
      (c'.server.registry b) := by
  have hnone : c.acceptOf l b = none →
      Inherits (Entry.Stems (c.phase = .order)) (v b).entries (v' b).entries →
      CWifiServer.Carries (c.phase = .order) (c.acceptOf l b) (c.server.registry b)
        (c'.server.registry b) := by
    intro haccept hinherits
    rw [haccept, CWifiServer.Carries, hv.registry, hv'.registry]
    exact hinherits
  cases h with
  | select r hphase hl =>
    apply hnone
    · cases b <;> simp [acceptOf, hphase, hl]
    · exact inherits_refl _
  | skip hskip hl =>
    apply hnone
    · rcases hl with rfl | rfl <;> cases b <;> simp [acceptOf]
    · exact inherits_refl _
  | @accept phase isSpy inc cid r haccept hunused hconnect =>
    by_cases hb : b = isSpy
    · subst hb
      obtain ⟨es, w, hentries, hintroduces, hweakened⟩ := connect_introduces hconnect
      have haccepted : c.acceptOf l b = some (inc, cid) := by
        rw [show c.acceptOf l b = _ from haccept.acceptOf b, if_pos rfl]
      rw [haccepted, CWifiServer.Carries, hv.registry, hv'.registry, Function.update_self,
        hv.views b]
      exact ⟨es, w, hentries, hintroduces, inherits_of_weakened hweakened⟩
    · apply hnone
      · rw [show c.acceptOf l b = _ from haccept.acceptOf b, if_neg hb]
      · rw [Function.update_of_ne hb]
        exact inherits_refl _
  | order hphase hl _ _ hreceived =>
    apply hnone
    · cases b <;> simp [acceptOf, hphase, hl]
    · exact (ordered_change hreceived.ordered b).inherits hphase
  | @visit srcIsSpy _ _ _ r q _ _ hphase hl hentries hcases =>
    obtain ⟨hsrc, hother⟩ :=
      @visit_inherits _ _ _ _ _ _ _ _ _ _ _ _ (c.phase = .order) hcases hentries
    apply hnone
    · cases b <;> simp [acceptOf, hphase, hl]
    · by_cases hb : b = srcIsSpy
      · subst hb
        rw [Function.update_of_ne (by simp), Function.update_self]
        exact hsrc
      · have hb' : b = !srcIsSpy := by cases b <;> cases srcIsSpy <;> simp_all
        subst hb'
        rw [Function.update_self]
        exact hother

/-! ## The recorded run -/

def callOf (b : Bool) (e : Entry) : Accepted := ⟨b, e.descriptor, e.cid⟩

theorem callOf_stems {ordered : Prop} {e e' : Entry} (h : e.Stems ordered e') (b : Bool) :
    callOf b e' = callOf b e := by
  rw [callOf, callOf, h.descriptor, Entry.cid, Entry.cid, h.info.cid_eq]

theorem Inherits.calls {ordered : Prop} {es es' : List Entry}
    (h : Inherits (Entry.Stems ordered) es es') (b : Bool) :
    (es'.map (callOf b)).Sublist (es.map (callOf b)) := by
  obtain ⟨kept, hkept, hstems⟩ := h
  have hsame : es'.map (callOf b) = kept.map (callOf b) := by
    clear hkept
    induction hstems with
    | nil => rfl
    | cons hstem _ ih => rw [List.map_cons, List.map_cons, callOf_stems hstem, ih]
  rw [hsame]
  exact hkept.map _

/-- The invariant of the recorded run: the pairs of a registry, as calls, are some
of the calls made, and no later call returned the same descriptor. -/
def Recorded (history : List Accepted) (v : Bool → Registry) : Prop :=
  ∀ b, ((v b).entries.map (callOf b)).Sublist history ∧
    ∀ a ∈ (v b).entries.map (callOf b), latest history a.descriptor = some a

theorem Recorded.paired {history : List Accepted} (h : Recorded history v) (hv : c.Sees v)
    (b : Bool) : (c.server.registry b).Paired history b := by
  obtain ⟨hsublist, hlatest⟩ := h b
  rw [hv.views b]
  refine ⟨(v b).server_sound.aligned, _, hsublist, ?_, ?_, fun a ha => ⟨?_, hlatest a ha⟩⟩
  · rw [Registry.server, List.map_map, List.map_map]
    rfl
  · rw [Registry.server, List.map_map, List.map_map]
    rfl
  · obtain ⟨e, _, rfl⟩ := List.mem_map.mp ha
    rfl

theorem Accepts.acceptedBy {phase phase' : Phase} {s : Server} {isSpy : Bool} {inc : Incoming}
    {cid : TCID} (h : Accepts s phase l phase' isSpy inc cid) :
    Config.acceptedBy ⟨phase, s⟩ l = [⟨isSpy, inc.descriptor, cid⟩] := by
  cases h <;> rfl

theorem acceptedBy_eq_nil (h : ∀ b, c.acceptOf l b = none) : c.acceptedBy l = [] := by
  rw [acceptedBy]
  simp only [h, Option.map_none]
  rfl

theorem acceptedBy_of_accept {b : Bool} {inc : Incoming} {cid : TCID}
    (h : c.acceptOf l b = some (inc, cid)) : c.acceptedBy l = [⟨b, inc.descriptor, cid⟩] := by
  cases b with
  | false =>
    simp only [acceptOf] at h
    split at h
    · cases h
      simp [acceptedBy, acceptOf, *]
    · cases h
      simp [acceptedBy, acceptOf, *]
    · cases h
  | true =>
    simp only [acceptOf] at h
    split at h
    · cases h
      simp [acceptedBy, acceptOf, *]
    · cases h

/-- The calls a step makes return descriptors that no entry holds. -/
theorem StepCases.fresh (h : StepCases medium c l v c' v') (hledger : Ledger v c.server.kernel.log)
    {a : Accepted} (ha : a ∈ c.acceptedBy l) (b : Bool) :
    ∀ a' ∈ (v b).entries.map (callOf b), a'.descriptor ≠ a.descriptor := by
  have hnone : (∀ b, c.acceptOf l b = none) → False := by
    intro h
    rw [acceptedBy_eq_nil h] at ha
    exact absurd ha List.not_mem_nil
  cases h with
  | select r hphase hl =>
    refine absurd ?_ hnone
    intro b
    cases b <;> simp [acceptOf, hphase, hl]
  | skip hskip hl =>
    refine absurd ?_ hnone
    intro b
    rcases hl with rfl | rfl <;> cases b <;> simp [acceptOf]
  | order hphase hl _ _ hreceived =>
    refine absurd ?_ hnone
    intro b
    cases b <;> simp [acceptOf, hphase, hl]
  | visit hphase hl hentries hcases =>
    refine absurd ?_ hnone
    intro b
    cases b <;> simp [acceptOf, hphase, hl]
  | @accept phase isSpy inc cid r haccept hunused hconnect =>
    rw [show c.acceptedBy l = _ from haccept.acceptedBy, List.mem_singleton] at ha
    subst ha
    rintro a' ha' heq
    obtain ⟨e, he, rfl⟩ := List.mem_map.mp ha'
    have hheld : 0 < holders (v b).entries inc.descriptor := by
      apply List.count_pos_iff.mpr
      have hdescriptor : e.descriptor = inc.descriptor := heq
      exact hdescriptor ▸ List.mem_map_of_mem he
    have hopens : opens inc.descriptor c.server.kernel.log = 0 := by
      rw [opens, unused_closed hunused]
      rfl
    have hle := (hledger inc.descriptor).2
    rw [holdersOf_both v b] at hle
    omega

theorem StepCases.recorded {history : List Accepted} (h : StepCases medium c l v c' v')
    (hv : c.Sees v) (hv' : c'.Sees v') (hledger : Ledger v c.server.kernel.log)
    (hrecorded : Recorded history v) : Recorded (history ++ c.acceptedBy l) v' := by
  intro b
  obtain ⟨hsublist, hlatest⟩ := hrecorded b
  have hkept : ∀ a ∈ (v b).entries.map (callOf b),
      latest (history ++ c.acceptedBy l) a.descriptor = some a := by
    intro a ha
    rw [latest_append_of_ne fun a' ha' => (h.fresh hledger ha' b a ha).symm]
    exact hlatest a ha
  have hcarries := h.carries hv hv' b
  cases haccept : c.acceptOf l b with
  | none =>
    rw [haccept, CWifiServer.Carries, hv.registry, hv'.registry] at hcarries
    have hcalls := Inherits.calls hcarries b
    exact ⟨(hcalls.trans hsublist).trans (List.sublist_append_left _ _),
      fun a ha => hkept a (hcalls.subset ha)⟩
  | some accepted =>
    obtain ⟨inc, cid⟩ := accepted
    rw [haccept, CWifiServer.Carries, hv.registry, hv'.registry] at hcarries
    obtain ⟨es, w, hentries, ⟨hcid, _⟩, hinherits⟩ := hcarries
    have hcalls := Inherits.calls hinherits b
    have hnew : c.acceptedBy l = [callOf b ⟨⟨inc.descriptor, true⟩, w⟩] := by
      rw [acceptedBy_of_accept haccept, ← hcid]
      rfl
    rw [hnew] at hkept ⊢
    rw [hentries, List.map_append, List.map_singleton]
    refine ⟨(hcalls.trans hsublist).append (List.Sublist.refl _), ?_⟩
    intro a ha
    rcases List.mem_append.mp ha with ha | ha
    · exact hkept a (hcalls.subset ha)
    · rw [List.mem_singleton.mp ha]
      exact latest_append_self _ _

/-! ## Attenuation -/

theorem attenuatesByGuest (medium : Medium) (r : Registry) :
    r.server.AttenuatesByGuest medium := by
  intro canLostPackets scale k index power data hindex
  rw [Registry.server_getNumberClient] at hindex
  obtain ⟨before, after, hentries, hlen⟩ := split_of_getElem? (List.getElem?_eq_getElem hindex)
  generalize r.entries[index] = sender at hentries
  subst hlen
  have hsender : r.server.infoWifis[before.length]? = some sender.info := by
    rw [Registry.getElem?_infoWifis, hentries]
    simp
  obtain ⟨before', after', k', acts, acts', hloop, hbefore, hafter, hwrites⟩ :=
    Registry.sendLoop_others hentries k fun j a ha =>
      transmitAttenuated_delivers medium canLostPackets scale sender.info.toCCoordinate
        power data ha
  refine ⟨before, sender, after, before', after', k',
    (r.withEntries (before' ++ sender :: after')).server, acts, acts', ?_, rfl, ?_, ?_, hbefore,
    hafter, hwrites⟩
  · rw [Registry.server_entries, hentries]
  · simp only [CWifiServer.sendAllOtherClients, hsender]
    exact hloop
  · rw [Registry.server_entries]
    rfl

/-- In every state of a run the k-th elements of the two vectors of a registry come
from one call of `Accept`. -/
theorem keeps_paired (medium : Medium) (setup : Setup) (ls : List Label) :
    Lts.States (stepRecorded medium) (KeepsPaired medium) (init setup, []) ls := by
  have hstates : Lts.States (stepRecorded medium)
      (fun p => ∃ v, p.1.Sees v ∧ Ledger v p.1.server.kernel.log ∧ Recorded p.2 v)
      (init setup, []) ls := by
    refine Lts.states_of_invariant ls ?_ ⟨initialView, init_sees setup, init_ledger setup, ?_⟩
    · rintro ⟨c, history⟩ l p ⟨v, hv, hledger, hrecorded⟩ h
      obtain ⟨c', hstep, rfl⟩ := Option.map_eq_some_iff.mp h
      obtain ⟨v', hv', hcases⟩ := step_cases hv hstep
      obtain ⟨_, hflow, _⟩ := step_flow hv hcases
      exact ⟨v', hv', hflow.ledger hledger, hcases.recorded hv hv' hledger hrecorded⟩
    · intro b
      exact ⟨List.Sublist.refl [], fun a ha => absurd ha List.not_mem_nil⟩
  refine hstates.mono ?_
  rintro ⟨c, history⟩ ⟨v, hv, hledger, hrecorded⟩
  refine ⟨hrecorded.paired hv, ?_, fun b => ?_⟩
  · intro l c' hstep b
    obtain ⟨v', hv', hcases⟩ := step_cases hv hstep
    exact hcases.carries hv hv' b
  · rw [hv.views b]
    exact attenuatesByGuest medium (v b)

end Config

end Vwifi
