import Vwifi.Reconnect

/-!
# The record a connection starts with

Records of one CID may wait in both lists of the registry. `Accept` takes the
oldest disconnected one and looks at the live list only when there is none, so
it restores the most recent record only as long as no older one was left behind.
-/

namespace Vwifi

set_option autoImplicit false

namespace CWifiServer

/-- The records of a CID, from the oldest to the newest: the disconnected ones in
the order they were stored, those of connections that await their removal, those
of the enabled ones. -/
def recordsOf (s : CWifiServer) (cid : TCID) : List CInfoWifi :=
  s.storedOf cid ++ ((s.connectionsOf cid).filter (!·.enabled)).map Entry.info ++
    ((s.connectionsOf cid).filter Entry.enabled).map Entry.info

/-- The coordinate and the name of the newest record, or the defaults. -/
def mostRecent (s : CWifiServer) (cid : TCID) : CCoordinate × CString :=
  match (s.recordsOf cid).getLast? with
  | some w => (w.toCCoordinate, w.name)
  | none => (CCoordinate.zero, CString.empty)

/-- An `Accept` of `cid` that makes `s'` of `s` gives the new entry what the most
recent record says, and no record it takes from the disconnected ones is older
than another one of that CID. -/
structure Restores (cid : TCID) (s s' : CWifiServer) : Prop where
  recent : ∃ w, s'.infoWifis.getLast? = some w ∧ (w.toCCoordinate, w.name) = s.mostRecent cid
  newest : ∀ older w newer, s.infoWifisDeconnected = older ++ w :: newer →
    s'.infoWifisDeconnected = older ++ newer → w.cid = cid →
      s.connectionsOf cid = [] ∧ ∀ w' ∈ newer, w'.cid ≠ cid

/-- A disconnected record of `cid` is the only record of `cid`; and when all that
is known of `cid` awaits its removal, there is nothing to lose. -/
structure RecordSafe (cid : TCID) (s : CWifiServer) : Prop where
  only : s.storedOf cid ≠ [] → (s.storedOf cid).length = 1 ∧ s.connectionsOf cid = []
  blank : s.storedOf cid = [] → (∀ e ∈ s.connectionsOf cid, e.enabled = false) →
    ∀ e, (s.connectionsOf cid).getLast? = some e →
      e.info.toCCoordinate = CCoordinate.zero ∧ e.info.name = CString.empty

end CWifiServer

namespace Registry

variable {r r' : Registry} {d : TDescriptor} {cid : TCID}

theorem connectionsOf_server (r : Registry) (cid : TCID) :
    r.server.connectionsOf cid = r.entries.filter (·.cid = cid) := by
  rw [CWifiServer.connectionsOf, server_entries]

theorem filter_connectionsOf (r : Registry) (cid : TCID) :
    (r.server.connectionsOf cid).filter Entry.enabled = r.entries.filter (Entry.isLive cid) := by
  rw [connectionsOf_server, List.filter_filter]
  apply List.filter_congr
  intro e _
  simp [Entry.isLive]

theorem eraseP_of_find? {w : CInfoWifi} (h : r.stored.find? (·.cid = cid) = some w) :
    w.cid = cid ∧ ∃ older newer, r.stored = older ++ w :: newer ∧
      r.stored.eraseP (·.cid = cid) = older ++ newer ∧ ∀ w' ∈ older, w'.cid ≠ cid := by
  obtain ⟨hw, older, newer, hstored, holder⟩ := List.find?_eq_some_iff_append.mp h
  have hcid : w.cid = cid := by simpa using hw
  have holder' : ∀ w' ∈ older, w'.cid ≠ cid := by
    intro w' hw'
    simpa using holder w' hw'
  refine ⟨hcid, older, newer, hstored, ?_, holder'⟩
  have herase : (w :: newer).eraseP (·.cid = cid) = newer := List.eraseP_cons_of_pos hw
  rw [hstored, List.eraseP_append_right _ (by simpa using holder'), herase]

theorem infoWifis_add (r : Registry) (d : TDescriptor) (w : CInfoWifi) :
    (r.add d w).server.infoWifis.getLast? = some w := by
  have hmap : (r.add d w).server.infoWifis = r.entries.map Entry.info ++ [w] := List.map_append
  rw [hmap, List.getLast?_concat]

theorem storedOf_split {older newer : List CInfoWifi} {w : CInfoWifi} (hw : w.cid = cid)
    (h : r.stored = older ++ w :: newer) :
    r.server.storedOf cid =
      older.filter (·.cid = cid) ++ w :: newer.filter (·.cid = cid) := by
  rw [CWifiServer.storedOf, server_stored, h, List.filter_append, List.filter_cons,
    if_pos (decide_eq_true hw)]

theorem connect_stored {w : CInfoWifi} (hfind : r.stored.find? (·.cid = cid) = some w)
    (h : r.connect d cid = some r') :
    CWifiServer.Restores cid r.server r'.server ↔ CWifiServer.RecordSafe cid r.server := by
  rw [connect, hfind] at h
  cases h
  obtain ⟨hw, older, newer, hstored, herase, holder⟩ := eraseP_of_find? hfind
  have hsplit := storedOf_split hw hstored
  have hfront : older.filter (·.cid = cid) = [] := by
    apply List.filter_eq_nil_iff.mpr
    simpa using holder
  rw [hfront, List.nil_append] at hsplit
  have hne : r.server.storedOf cid ≠ [] := by
    rw [hsplit]
    exact List.cons_ne_nil _ _
  constructor
  · rintro ⟨_, hnewest⟩
    obtain ⟨hconn, hnewer⟩ := hnewest older w newer hstored herase hw
    have hback : newer.filter (·.cid = cid) = [] := by
      apply List.filter_eq_nil_iff.mpr
      simpa using hnewer
    refine ⟨fun _ => ⟨?_, hconn⟩, fun hnil => absurd hnil hne⟩
    rw [hsplit, hback]
    rfl
  · rintro ⟨honly, _⟩
    obtain ⟨hone, hconn⟩ := honly hne
    constructor
    · refine ⟨w, infoWifis_add _ d w, ?_⟩
      rw [hsplit, List.length_cons] at hone
      have hback := List.length_eq_zero_iff.mp (Nat.succ.inj hone)
      rw [CWifiServer.mostRecent, CWifiServer.recordsOf, hsplit, hback, hconn]
      rfl
    · intro older' w' newer' hstored' _ hw'
      refine ⟨hconn, ?_⟩
      rw [storedOf_split hw' hstored', List.length_append, List.length_cons] at hone
      have hback : newer'.filter (·.cid = cid) = [] := List.length_eq_zero_iff.mp (by omega)
      simpa using List.filter_eq_nil_iff.mp hback

section Empty

variable (hnone : r.stored.find? (·.cid = cid) = none)
include hnone

theorem storedOf_of_find?_none : r.server.storedOf cid = [] :=
  List.filter_eq_nil_iff.mpr (List.find?_eq_none.mp hnone)

theorem newest_of_none (s' : CWifiServer) : ∀ older w newer, r.stored = older ++ w :: newer →
    s'.infoWifisDeconnected = older ++ newer → w.cid = cid →
      r.server.connectionsOf cid = [] ∧ ∀ w' ∈ newer, w'.cid ≠ cid := by
  intro older w newer hstored _ hw
  have hmem : w ∈ r.stored := by
    rw [hstored]
    exact List.mem_append_right _ List.mem_cons_self
  exact absurd (decide_eq_true hw) (List.find?_eq_none.mp hnone w hmem)

theorem connect_live {e : Entry} (hlive : r.entries.find? (Entry.isLive cid) = some e)
    (hone : r.entries.countP (Entry.isLive cid) ≤ 1) (h : r.connect d cid = some r') :
    CWifiServer.Restores cid r.server r'.server ↔ CWifiServer.RecordSafe cid r.server := by
  rw [connect, hnone] at h
  simp only [hlive] at h
  cases h
  have hstored := storedOf_of_find?_none hnone
  have hmem := List.mem_of_find?_eq_some hlive
  have hfilter : r.entries.filter (Entry.isLive cid) = [e] := by
    have hin := List.mem_filter.mpr ⟨hmem, List.find?_some hlive⟩
    rw [List.countP_eq_length_filter] at hone
    obtain ⟨a, ha⟩ := List.length_eq_one_iff.mp
      (Nat.le_antisymm hone (List.length_pos_of_mem hin))
    rw [ha] at hin ⊢
    rw [List.mem_singleton.mp hin]
  refine ⟨fun _ => ⟨fun hne => absurd hstored hne, ?_⟩, fun _ => ⟨?_, newest_of_none hnone _⟩⟩
  · intro _ hdisabled
    obtain ⟨henabled, hcid⟩ := Entry.isLive_iff.mp (List.find?_some hlive)
    have hin : e ∈ r.server.connectionsOf cid := by
      rw [connectionsOf_server]
      exact List.mem_filter.mpr ⟨hmem, decide_eq_true hcid⟩
    rw [hdisabled e hin] at henabled
    cases henabled
  · refine ⟨e.info, infoWifis_add _ d e.info, ?_⟩
    rw [CWifiServer.mostRecent, CWifiServer.recordsOf, filter_connectionsOf, hfilter,
      List.map_singleton, List.getLast?_concat]

theorem connect_fresh (hlive : r.entries.find? (Entry.isLive cid) = none)
    (h : r.connect d cid = some r') :
    CWifiServer.Restores cid r.server r'.server ↔ CWifiServer.RecordSafe cid r.server := by
  rw [connect, hnone] at h
  simp only [hlive] at h
  obtain ⟨w, hw, rfl⟩ := Option.map_eq_some_iff.mp h
  have hstored := storedOf_of_find?_none hnone
  have hdefault : (w.toCCoordinate, w.name) = (CCoordinate.zero, CString.empty) := by
    unfold CInfoWifi.setCid at hw
    split at hw
    · cases hw
      rfl
    · cases hw
  have henabled : (r.server.connectionsOf cid).filter Entry.enabled = [] := by
    rw [filter_connectionsOf]
    exact List.filter_eq_nil_iff.mpr (List.find?_eq_none.mp hlive)
  have hdisabled : ∀ e ∈ r.server.connectionsOf cid, e.enabled = false := by
    intro e he
    simpa using List.filter_eq_nil_iff.mp henabled e he
  have hrecords : r.server.recordsOf cid = (r.server.connectionsOf cid).map Entry.info := by
    have hall : (r.server.connectionsOf cid).filter (!·.enabled) = r.server.connectionsOf cid := by
      apply List.filter_eq_self.mpr
      intro e he
      rw [hdisabled e he]
      rfl
    rw [CWifiServer.recordsOf, hstored, henabled, hall, List.map_nil, List.append_nil,
      List.nil_append]
  have hrecent : r.server.mostRecent cid = (CCoordinate.zero, CString.empty) ↔
      ∀ e, (r.server.connectionsOf cid).getLast? = some e →
        e.info.toCCoordinate = CCoordinate.zero ∧ e.info.name = CString.empty := by
    rw [CWifiServer.mostRecent, hrecords, List.getLast?_map]
    cases (r.server.connectionsOf cid).getLast? with
    | none => simp
    | some e => simp
  constructor
  · rintro ⟨⟨w', hlast, hw'⟩, _⟩
    rw [infoWifis_add, Option.some.injEq] at hlast
    subst hlast
    exact ⟨fun hne => absurd hstored hne, fun _ _ => hrecent.mp (hw'.symm.trans hdefault)⟩
  · rintro ⟨_, hblank⟩
    exact ⟨⟨w, infoWifis_add _ d w, hdefault.trans (hrecent.mpr (hblank hstored hdisabled)).symm⟩,
      newest_of_none hnone _⟩

end Empty

/-- Among unique connections, an `Accept` restores the most recent record exactly
when it is a safe one. -/
theorem connect_restores_iff (hone : r.entries.countP (Entry.isLive cid) ≤ 1)
    (h : r.connect d cid = some r') :
    CWifiServer.Restores cid r.server r'.server ↔ CWifiServer.RecordSafe cid r.server := by
  cases hfind : r.stored.find? (·.cid = cid) with
  | some w => exact connect_stored hfind h
  | none =>
    cases hlive : r.entries.find? (Entry.isLive cid) with
    | some e => exact connect_live hfind hlive hone h
    | none => exact connect_fresh hfind hlive h

end Registry

namespace Config

/-- The `Accept` of a client restores the most recent record of its CID. -/
def RestoresMostRecent (medium : Medium) (c : Config) (l : Label) : Prop :=
  ∀ inc cid c', c.acceptOf l false = some (inc, cid) → step medium c l = some c' →
    CWifiServer.Restores cid c.server.wifiServer c'.server.wifiServer

def AcceptSafe (c : Config) (l : Label) : Prop :=
  ∀ inc cid, c.acceptOf l false = some (inc, cid) → c.server.wifiServer.RecordSafe cid

variable {medium : Medium} {c c' : Config} {l : Label} {v : Bool → Registry}

theorem AcceptSafe.reconnectSafe (h : c.AcceptSafe l) : c.ReconnectSafe l := by
  rintro inc cid haccept ⟨e, he, hlive⟩ w hw hcid
  have hne : c.server.wifiServer.storedOf cid ≠ [] :=
    List.ne_nil_of_mem (List.mem_filter.mpr ⟨hw, decide_eq_true hcid⟩)
  have hmem : e ∈ c.server.wifiServer.connectionsOf cid :=
    List.mem_filter.mpr ⟨he, decide_eq_true (Entry.isLive_iff.mp hlive).2⟩
  rw [((h inc cid haccept).only hne).2] at hmem
  cases hmem

theorem step_restores_iff (hv : c.Sees v) (hone : c.OneConnection)
    (h : step medium c l = some c') : RestoresMostRecent medium c l ↔ c.AcceptSafe l := by
  obtain ⟨v', hv', hcases⟩ := step_cases hv h
  have hwifi : c.server.wifiServer = (v false).server := hv.views false
  have hwifi' : c'.server.wifiServer = (v' false).server := hv'.views false
  have hiff : ∀ inc cid, c.acceptOf l false = some (inc, cid) →
      (CWifiServer.Restores cid c.server.wifiServer c'.server.wifiServer ↔
        c.server.wifiServer.RecordSafe cid) := by
    intro inc cid haccept
    have hchange := hcases.change false
    rw [haccept] at hchange
    cases hchange with
    | connected hconnect =>
      have hcount := hone cid
      rw [hv.entries] at hcount
      rw [hwifi, hwifi']
      exact Registry.connect_restores_iff hcount hconnect
  constructor
  · intro hrestores inc cid haccept
    exact (hiff inc cid haccept).mp (hrestores inc cid c' haccept h)
  · intro hsafe inc cid c'' haccept h'
    rw [h, Option.some.injEq] at h'
    subst h'
    exact (hiff inc cid haccept).mpr (hsafe inc cid haccept)

/-- In a run every `Accept` of a client restores the most recent record of its
CID exactly when every one of them is safe. -/
theorem restores_most_recent_iff (medium : Medium) (setup : Setup) (ls : List Label) :
    Lts.Steps (step medium) (RestoresMostRecent medium) (init setup) ls ↔
      Lts.Steps (step medium) AcceptSafe (init setup) ls := by
  have hinit : (init setup).OneConnection ∧ ∃ v, (init setup).Sees v :=
    ⟨fun _ => Nat.zero_le _, initialView, init_sees setup⟩
  have hnext : ∀ c l c', (c.OneConnection ∧ ∃ v, c.Sees v) → c.AcceptSafe l →
      step medium c l = some c' → c'.OneConnection ∧ ∃ v, c'.Sees v := by
    rintro c l c' ⟨hone, v, hv⟩ hsafe h
    obtain ⟨v', hv', _⟩ := step_cases hv h
    exact ⟨(step_oneConnection hv h hone).mpr hsafe.reconnectSafe, v', hv'⟩
  constructor
  · refine Lts.steps_of_steps (I := fun c => c.OneConnection ∧ ∃ v, c.Sees v) ?_ hinit
    rintro c l c' ⟨hone, v, hv⟩ hrestores h
    have hsafe := (step_restores_iff hv hone h).mp hrestores
    exact ⟨hsafe, hnext c l c' ⟨hone, v, hv⟩ hsafe h⟩
  · refine Lts.steps_of_steps (I := fun c => c.OneConnection ∧ ∃ v, c.Sees v) ?_ hinit
    rintro c l c' ⟨hone, v, hv⟩ hsafe h
    exact ⟨(step_restores_iff hv hone h).mpr hsafe, hnext c l c' ⟨hone, v, hv⟩ hsafe h⟩

/-- A client connects, connects again, is moved, and connects a third time: it
starts with the record its first connection left, not with that of the second. -/
theorem restores_most_recent_fails :
    ¬ Lts.Steps (step Medium.uniform) (RestoresMostRecent Medium.uniform) (init Setup.tcp)
      (Label.joins ⟨10, [], []⟩ ⟨0x020010AC, 0⟩ 3 ++ Label.joins ⟨11, [], []⟩ ⟨0x020010AC, 0⟩ 4 ++
        [.select (.ready (· = 5) 1), .skip, .skip, .skip,
          .order ⟨12, [[3, 0, 0, 0], [0xAC, 0x12, 0, 0], [1, 0, 0, 0, 2, 0, 0, 0, 3, 0, 0, 0]], []⟩
            (fun _ _ => 0), .skip, .skip, .skip, .select (.ready (· = 3) 1), .skip] ++
        [.connectIn ⟨13, [], []⟩ ⟨0x020010AC, 0⟩]) := by
  intro h
  have hrun : (Lts.run (step Medium.uniform) (init Setup.tcp)
      (Label.joins ⟨10, [], []⟩ ⟨0x020010AC, 0⟩ 3 ++ Label.joins ⟨11, [], []⟩ ⟨0x020010AC, 0⟩ 4 ++
        [.select (.ready (· = 5) 1), .skip, .skip, .skip,
          .order ⟨12, [[3, 0, 0, 0], [0xAC, 0x12, 0, 0], [1, 0, 0, 0, 2, 0, 0, 0, 3, 0, 0, 0]], []⟩
            (fun _ _ => 0), .skip, .skip, .skip, .select (.ready (· = 3) 1), .skip])).bind
      (fun c => (step Medium.uniform c (.connectIn ⟨13, [], []⟩ ⟨0x020010AC, 0⟩)).map fun c' =>
        ((c.acceptOf (.connectIn ⟨13, [], []⟩ ⟨0x020010AC, 0⟩) false).map Prod.snd,
          (c.server.wifiServer.mostRecent 4780).1,
          c'.server.wifiServer.infoWifis.getLast?.map CInfoWifi.toCCoordinate)) =
      some (some 4780, ⟨1, 2, 3⟩, some ⟨0, 0, 0⟩) := by
    decide +kernel
  obtain ⟨c, hc, hstep⟩ := Option.bind_eq_some_iff.mp hrun
  obtain ⟨c', hc', hvalues⟩ := Option.map_eq_some_iff.mp hstep
  simp only [Prod.mk.injEq] at hvalues
  obtain ⟨haccept, hrecent, hlast⟩ := hvalues
  obtain ⟨⟨inc, cid⟩, haccept, hcid⟩ := Option.map_eq_some_iff.mp haccept
  cases hcid
  obtain ⟨w, hw, hcoo⟩ := ((h.after hc c' hc').1 inc 4780 c' haccept hc').recent
  rw [hw, Option.map_some, Option.some.injEq] at hlast
  have hcoo' := congrArg Prod.fst hcoo
  rw [hrecent, hlast] at hcoo'
  cases hcoo'

end Config

end Vwifi
