import Vwifi.Lib.Keyed
import Vwifi.Provenance

/-!
# The clients' registry as a directory

What the server is for, apart from forwarding: it knows where each guest is and what
it is called. The directory is told of guests that join, move and get a name, and that
the oldest absent ones are forgotten when there are too many. As long as nobody connects
whose previous connection is still registered, the registry holds what the directory has
been told.
-/

namespace Vwifi

set_option autoImplicit false

/-- Where a guest is, and what it is called. -/
structure Whereabouts where
  place : CCoordinate
  name : CString
deriving DecidableEq

/-- The whereabouts of a guest of which nothing was told. -/
def Whereabouts.untold : Whereabouts := ⟨CCoordinate.zero, CString.empty⟩

def CInfoWifi.whereabouts (w : CInfoWifi) : Whereabouts := ⟨w.toCCoordinate, w.name⟩

inductive Notice where
  | joined (cid : TCID)
  | moved (cid : TCID) (place : CCoordinate)
  | named (cid : TCID) (name : CString)
  | forgotten (cid : TCID)

/-- The guests that are known. -/
abbrev Directory := TCID → Option Whereabouts

namespace Directory

def empty : Directory := fun _ => none

/-- What becomes of what is known of a guest. A guest without a record that gets a name
stays unknown. -/
def note (known : Directory) : Notice → Directory
  | .joined cid => Function.update known cid (some ((known cid).getD Whereabouts.untold))
  | .moved cid place =>
    Function.update known cid (some { (known cid).getD Whereabouts.untold with place := place })
  | .named cid name =>
    Function.update known cid
      ((known cid).map fun w => { w with name := name.resize maxSizeName })
  | .forgotten cid => Function.update known cid none

/-- What is known after some notices. -/
def told (known : Directory) (notices : List Notice) : Directory := notices.foldl note known

theorem told_append (known : Directory) (first second : List Notice) :
    known.told (first ++ second) = (known.told first).told second := List.foldl_append

theorem told_forgotten (known : Directory) (cids : List TCID) (cid : TCID) :
    known.told (cids.map Notice.forgotten) cid = if cid ∈ cids then none else known cid := by
  induction cids generalizing known with
  | nil => rfl
  | cons c cids ih =>
    have hnext := ih (known.note (.forgotten c))
    rw [List.map_cons, told, List.foldl_cons]
    refine hnext.trans ?_
    by_cases hc : cid = c
    · subst hc
      simp [note]
    · simp [note, hc]

end Directory

/-! ## What a registry knows -/

/-- The directory that a list of records is. -/
def directoryOf (ws : List CInfoWifi) : Directory := fun cid =>
  (Keyed.lookup CInfoWifi.cid cid ws).map CInfoWifi.whereabouts

def CWifiServer.directory (s : CWifiServer) : Directory := directoryOf s.records

/-- The records that go when others are stored. -/
def CWifiServer.forgetting (s : CWifiServer) (ws : List CInfoWifi) : List Notice :=
  (Bounded.dropped s.maxClientDeconnected s.infoWifisDeconnected ws).map fun w => .forgotten w.cid

/-- What a registry is told by a request. -/
def CWifiServer.noticesOf (s : CWifiServer) : Request → List Notice
  | .changeCoordinate cid coo =>
    match CInfoWifi.ofCoordinate cid coo with
    | none => []
    | some w =>
      if cid < tcidGuestMin then []
      else
        .moved cid coo :: if cid ∈ s.records.map CInfoWifi.cid then [] else s.forgetting [w]
  | .setName cid name => if cid < tcidGuestMin then [] else [.named cid name]
  | .closeAllClient => s.forgetting s.infoWifis
  | _ => []

section Records

variable {ws ws' : List CInfoWifi}

theorem directoryOf_perm (hperm : ws.Perm ws') (hdistinct : (ws.map CInfoWifi.cid).Nodup) :
    directoryOf ws = directoryOf ws' := by
  funext cid
  rw [directoryOf, directoryOf, Keyed.lookup_perm hperm hdistinct]

/-- A record of a guest that is not known. -/
theorem directoryOf_append_singleton {w : CInfoWifi} (h : w.cid ∉ ws.map CInfoWifi.cid) :
    directoryOf (ws ++ [w]) = Function.update (directoryOf ws) w.cid (some w.whereabouts) := by
  funext cid
  rw [directoryOf, Keyed.lookup_append]
  by_cases hcid : cid = w.cid
  · subst hcid
    rw [Function.update_self, Keyed.lookup_eq_none_iff.mpr h, Option.none_or,
      Keyed.lookup_cons_self]
    rfl
  · rw [Function.update_of_ne hcid, Keyed.lookup_cons_of_ne (Ne.symm hcid)]
    cases hfound : Keyed.lookup CInfoWifi.cid cid ws with
    | none => rw [directoryOf, hfound]; rfl
    | some w' => rw [directoryOf, hfound]; rfl

/-- Of records that are stored behind others the oldest ones are forgotten. -/
theorem directoryOf_pushAll {capacity : Nat} {stored live new : List CInfoWifi}
    (hpos : 1 ≤ capacity) (hbounded : stored.length ≤ capacity)
    (hperm : ws.Perm (live ++ (stored ++ new))) (hdistinct : (ws.map CInfoWifi.cid).Nodup) :
    ((live ++ Bounded.pushAll capacity stored new).map CInfoWifi.cid).Nodup ∧
      directoryOf (live ++ Bounded.pushAll capacity stored new) =
        (directoryOf ws).told ((Bounded.dropped capacity stored new).map fun w =>
          .forgotten w.cid) := by
  have hsplit : ws.Perm (Bounded.dropped capacity stored new ++
      (live ++ Bounded.pushAll capacity stored new)) := by
    rw [← Bounded.dropped_append new hpos hbounded] at hperm
    refine hperm.trans ?_
    rw [← List.append_assoc, ← List.append_assoc]
    exact List.perm_append_comm.append_right _
  have hdistinct' := (hsplit.map CInfoWifi.cid).nodup_iff.mp hdistinct
  refine ⟨?_, ?_⟩
  · rw [List.map_append] at hdistinct'
    exact (List.nodup_append.mp hdistinct').2.1
  · funext cid
    have hforgotten := (directoryOf ws).told_forgotten
      ((Bounded.dropped capacity stored new).map CInfoWifi.cid) cid
    rw [List.map_map] at hforgotten
    refine Eq.trans ?_ hforgotten.symm
    rw [directoryOf, Keyed.lookup_of_append hdistinct' cid]
    split
    · rfl
    · rw [directoryOf, Keyed.lookup_perm hsplit hdistinct]

/-- The change of the records of one guest. -/
theorem directoryOf_onKey {cid : TCID} {f : CInfoWifi → CInfoWifi} {g : Whereabouts → Whereabouts}
    (hcid : ∀ w, (f w).cid = w.cid) (hf : ∀ w, (f w).whereabouts = g w.whereabouts) :
    directoryOf (ws.map (Keyed.onKey CInfoWifi.cid cid f)) =
      Function.update (directoryOf ws) cid ((directoryOf ws cid).map g) := by
  funext cid'
  rw [directoryOf, Keyed.lookup_onKey hcid]
  by_cases heq : cid' = cid
  · subst heq
    rw [if_pos rfl, Function.update_self, directoryOf, Option.map_map, Option.map_map]
    congr 1
    funext w
    exact hf w
  · rw [if_neg heq, Function.update_of_ne heq]
    rfl

theorem directoryOf_isSome {cid : TCID} (h : cid ∈ ws.map CInfoWifi.cid) :
    ∃ w, directoryOf ws cid = some w := by
  cases hfound : Keyed.lookup CInfoWifi.cid cid ws with
  | none => exact absurd h (Keyed.lookup_eq_none_iff.mp hfound)
  | some w => exact ⟨w.whereabouts, by rw [directoryOf, hfound]; rfl⟩

theorem directoryOf_eq_none {cid : TCID} (h : cid ∉ ws.map CInfoWifi.cid) :
    directoryOf ws cid = none := by
  rw [directoryOf, Keyed.lookup_eq_none_iff.mpr h]
  rfl

end Records

namespace Registry

/-- The records fit into their list, and no two are of one guest. -/
structure Tidy (r : Registry) : Prop where
  bounded : r.stored.length ≤ r.capacity
  distinct : (r.records.map CInfoWifi.cid).Nodup

/-- The registry is tidy again, and it knows what the directory has been told. -/
structure Learns (r : Registry) (notices : List Notice) (r' : Registry) : Prop where
  tidy : r'.Tidy
  directory : directoryOf r'.records = (directoryOf r.records).told notices

variable {r r' : Registry}

theorem Tidy.learns_nothing (h : r.Tidy) : Learns r [] r := ⟨h, rfl⟩

theorem learns_weakened {es : List Entry} (h : r.Tidy)
    (hweakened : List.Forall₂ Entry.Weakened r.entries es) : Learns r [] (r.withEntries es) := by
  have hrecords := records_weakened hweakened
  exact ⟨⟨h.bounded, hrecords ▸ h.distinct⟩, congrArg directoryOf hrecords⟩

/-- Entries leave the registry and their records are stored. -/
theorem learns_pushAll {es : List Entry} {infos : List CInfoWifi} (h : r.Tidy)
    (hentries : (r.entries.map Entry.info).Perm (es.map Entry.info ++ infos)) :
    Learns r (r.server.forgetting infos)
      { r with entries := es, stored := Bounded.pushAll r.capacity r.stored infos } := by
  have hperm : r.records.Perm (es.map Entry.info ++ (r.stored ++ infos)) := by
    have hboth := hentries.append_right r.stored
    rw [List.append_assoc] at hboth
    exact hboth.trans (List.perm_append_comm.append_left _)
  obtain ⟨hdistinct, hdirectory⟩ :=
    directoryOf_pushAll r.positive h.bounded hperm h.distinct
  exact ⟨⟨Bounded.pushAll_length_le infos r.positive h.bounded, hdistinct⟩, hdirectory⟩

theorem learns_retire {before after : List Entry} {e : Entry} (h : r.Tidy)
    (hentries : r.entries = before ++ e :: after) :
    Learns r (r.server.forgetting [e.info]) (r.retire before e after) := by
  apply @learns_pushAll r (before ++ after) [e.info] h
  rw [hentries, List.map_append, List.map_append, List.map_cons, List.append_assoc]
  apply List.Perm.append_left
  exact (List.perm_append_singleton _ _).symm

theorem learns_clear (h : r.Tidy) :
    Learns r (r.server.forgetting r.server.infoWifis) r.clear := by
  apply @learns_pushAll r [] (r.entries.map Entry.info) h
  exact List.Perm.refl _

/-- A guest that is remembered connects. -/
theorem learns_recover {d : TDescriptor} {cid : TCID} {w : CInfoWifi} (h : r.Tidy)
    (hstored : r.stored.find? (·.cid = cid) = some w) :
    Learns r [.joined cid] ({ r with stored := r.stored.eraseP (·.cid = cid) }.add d w) := by
  have hcid : w.cid = cid := by simpa using List.find?_some hstored
  have hperm : r.records.Perm
      ({ r with stored := r.stored.eraseP (·.cid = cid) }.add d w).records := by
    rw [records, records, add, List.map_append, List.append_assoc]
    exact (Keyed.perm_cons_eraseP hstored).append_left _
  have hknown : directoryOf r.records cid = some w.whereabouts := by
    have hw : w ∈ r.records := List.mem_append_right _ (List.mem_of_find?_eq_some hstored)
    rw [directoryOf, ← hcid, Keyed.lookup_of_mem h.distinct hw]
    rfl
  refine ⟨⟨List.eraseP_sublist.length_le.trans h.bounded, ?_⟩, ?_⟩
  · exact (hperm.map CInfoWifi.cid).nodup_iff.mp h.distinct
  · rw [← directoryOf_perm hperm h.distinct]
    funext cid'
    by_cases heq : cid' = cid
    · subst heq
      simp [Directory.told, Directory.note, hknown]
    · simp [Directory.told, Directory.note, heq]

/-- A guest that is not known connects. -/
theorem learns_default {d : TDescriptor} {cid : TCID} {w : CInfoWifi} (h : r.Tidy)
    (hnew : cid ∉ r.records.map CInfoWifi.cid) (hw : CInfoWifi.default.setCid cid = some w) :
    Learns r [.joined cid] (r.add d w) := by
  have hcid : w.cid = cid := CInfoWifi.setCid_cid hw
  have huntold : w.whereabouts = Whereabouts.untold := by
    unfold CInfoWifi.setCid at hw
    split at hw
    · cases hw
      rfl
    · cases hw
  have hperm : (r.records ++ [w]).Perm (r.add d w).records := by
    rw [records, records, add, List.map_append, List.append_assoc, List.append_assoc]
    exact List.perm_append_comm.append_left _
  have hdistinct : ((r.records ++ [w]).map CInfoWifi.cid).Nodup := by
    rw [List.map_append]
    exact nodup_append_singleton.mpr ⟨hcid ▸ hnew, h.distinct⟩
  refine ⟨⟨h.bounded, (hperm.map CInfoWifi.cid).nodup_iff.mp hdistinct⟩, ?_⟩
  rw [← directoryOf_perm hperm hdistinct, directoryOf_append_singleton (hcid ▸ hnew), hcid, huntold]
  simp [Directory.told, Directory.note, directoryOf_eq_none hnew]

theorem not_mem_records {cid : TCID} (hentries : cid ∉ cids r.entries)
    (hstored : r.stored.find? (·.cid = cid) = none) : cid ∉ r.records.map CInfoWifi.cid := by
  rw [records, List.map_append, List.map_map, List.mem_append]
  intro hknown
  rcases hknown with hentry | hknown
  · exact hentries hentry
  · obtain ⟨w, hw, heq⟩ := List.mem_map.mp hknown
    exact List.find?_eq_none.mp hstored w hw (by simpa using heq)

/-- A guest connects that has no registered connection. -/
theorem learns_connect {d : TDescriptor} {cid : TCID} (h : r.Tidy) (habsent : cid ∉ cids r.entries)
    (hconnect : r.connect d cid = some r') : Learns r [.joined cid] r' := by
  unfold connect at hconnect
  split at hconnect
  · rename_i w hstored
    cases hconnect
    exact learns_recover h hstored
  · rename_i hstored
    have hlive : r.entries.find? (Entry.isLive cid) = none := by
      apply List.find?_eq_none.mpr
      intro e he hislive
      exact habsent ((Entry.isLive_iff.mp hislive).2 ▸ List.mem_map_of_mem he)
    rw [hlive] at hconnect
    obtain ⟨w, hw, rfl⟩ := Option.map_eq_some_iff.mp hconnect
    exact learns_default h (not_mem_records habsent hstored) hw

section Amended

variable {cid : TCID} {i : Nat} {f : CInfoWifi → CInfoWifi}

/-- The change of a registered record is the change of all records of its guest. -/
theorem records_amendEntry (h : r.Tidy)
    (hi : r.entries.findIdx? (·.cid = cid) = some i) :
    (r.amendEntry i f).records = r.records.map (Keyed.onKey CInfoWifi.cid cid f) := by
  have hdistinct := h.distinct
  rw [records, List.map_append, List.nodup_append] at hdistinct
  obtain ⟨hlive, _, hapart⟩ := hdistinct
  have hinfo : (r.entries.map Entry.info).findIdx? (fun w => w.cid = cid) = some i := by
    rw [List.findIdx?_map]
    exact hi
  have hmem : cid ∈ (r.entries.map Entry.info).map CInfoWifi.cid := by
    obtain ⟨hlt, hcid, _⟩ := List.findIdx?_eq_some_iff_getElem.mp hinfo
    rw [← of_decide_eq_true hcid]
    exact List.mem_map_of_mem (List.getElem_mem hlt)
  have hstored : cid ∉ r.stored.map CInfoWifi.cid := fun hcid => hapart cid hmem cid hcid rfl
  rw [records, records, List.map_append, Keyed.map_onKey_of_not_mem hstored,
    ← Keyed.modify_eq_map hlive hinfo, modify_info]
  rfl

theorem records_amendStored (h : r.Tidy) (hentries : r.entries.findIdx? (·.cid = cid) = none)
    (hi : r.stored.findIdx? (·.cid = cid) = some i) :
    (r.amendStored i f).records = r.records.map (Keyed.onKey CInfoWifi.cid cid f) := by
  have hdistinct := h.distinct
  rw [records, List.map_append, List.nodup_append] at hdistinct
  have hlive : cid ∉ (r.entries.map Entry.info).map CInfoWifi.cid := by
    rw [List.map_map]
    intro hcid
    obtain ⟨e, he, heq⟩ := List.mem_map.mp hcid
    exact of_decide_eq_false (List.findIdx?_eq_none_iff.mp hentries e he) heq
  rw [records, records, List.map_append, Keyed.map_onKey_of_not_mem hlive,
    ← Keyed.modify_eq_map hdistinct.2.1 hi]
  rfl

/-- The records of one guest change. -/
theorem learns_amended {g : Whereabouts → Whereabouts} {notices : List Notice} (h : r.Tidy)
    (hcid : ∀ w, (f w).cid = w.cid) (hf : ∀ w, (f w).whereabouts = g w.whereabouts)
    (hlength : r'.stored.length = r.stored.length) (hcapacity : r'.capacity = r.capacity)
    (hrecords : r'.records = r.records.map (Keyed.onKey CInfoWifi.cid cid f))
    (hnotices : (directoryOf r.records).told notices =
      Function.update (directoryOf r.records) cid ((directoryOf r.records cid).map g)) :
    Learns r notices r' := by
  refine ⟨⟨by rw [hlength, hcapacity]; exact h.bounded, ?_⟩, ?_⟩
  · rw [hrecords, Keyed.map_key_onKey hcid]
    exact h.distinct
  · rw [hrecords, hnotices]
    exact directoryOf_onKey hcid hf

theorem mem_records_of_findIdx? {es : List CInfoWifi} (hsub : es ⊆ r.records)
    (hi : es.findIdx? (·.cid = cid) = some i) : cid ∈ r.records.map CInfoWifi.cid := by
  obtain ⟨hlt, hcid, _⟩ := List.findIdx?_eq_some_iff_getElem.mp hi
  rw [← of_decide_eq_true hcid]
  exact List.mem_map_of_mem (hsub (List.getElem_mem hlt))

theorem mem_records_of_entry (hi : r.entries.findIdx? (·.cid = cid) = some i) :
    cid ∈ r.records.map CInfoWifi.cid := by
  apply @mem_records_of_findIdx? r cid i (r.entries.map Entry.info) (List.subset_append_left _ _)
  rw [List.findIdx?_map]
  exact hi

theorem mem_records_of_stored (hi : r.stored.findIdx? (·.cid = cid) = some i) :
    cid ∈ r.records.map CInfoWifi.cid :=
  mem_records_of_findIdx? (List.subset_append_right _ _) hi

theorem not_mem_records_of_findIdx? (hentries : r.entries.findIdx? (·.cid = cid) = none)
    (hstored : r.stored.findIdx? (·.cid = cid) = none) : cid ∉ r.records.map CInfoWifi.cid := by
  apply not_mem_records
  · intro hcid
    obtain ⟨e, he, heq⟩ := List.mem_map.mp hcid
    exact of_decide_eq_false (List.findIdx?_eq_none_iff.mp hentries e he) heq
  · apply List.find?_eq_none.mpr
    intro w hw heq
    exact of_decide_eq_false (List.findIdx?_eq_none_iff.mp hstored w hw) (of_decide_eq_true heq)

end Amended

/-- A guest that is known moves. -/
theorem told_moved {known : Directory} {cid : TCID} {place : CCoordinate}
    (hknown : ∃ w, known cid = some w) :
    known.told [.moved cid place] =
      Function.update known cid ((known cid).map fun w => { w with place := place }) := by
  obtain ⟨w, hw⟩ := hknown
  simp [Directory.told, Directory.note, hw]

/-- A guest is told of that has no record. -/
theorem learns_remember {w : CInfoWifi} (h : r.Tidy) (hnew : w.cid ∉ r.records.map CInfoWifi.cid)
    (hname : w.name = CString.empty) :
    Learns r (.moved w.cid w.toCCoordinate :: r.server.forgetting [w]) (r.remember w) := by
  have hdistinct : ((r.records ++ [w]).map CInfoWifi.cid).Nodup := by
    rw [List.map_append]
    exact nodup_append_singleton.mpr ⟨hnew, h.distinct⟩
  have hperm : (r.records ++ [w]).Perm (r.entries.map Entry.info ++ (r.stored ++ [w])) := by
    rw [records, List.append_assoc]
  obtain ⟨hdistinct', hdirectory⟩ := directoryOf_pushAll r.positive h.bounded hperm hdistinct
  refine ⟨⟨Bounded.push_length_le w r.positive h.bounded, hdistinct'⟩, hdirectory.trans ?_⟩
  have hnote : directoryOf (r.records ++ [w]) =
      (directoryOf r.records).note (.moved w.cid w.toCCoordinate) := by
    rw [directoryOf_append_singleton hnew, Directory.note, directoryOf_eq_none hnew,
      CInfoWifi.whereabouts, hname]
    rfl
  rw [hnote]
  rfl

section Moved

variable {cid : TCID} {coo : CCoordinate} {w : CInfoWifi} (hmin : ¬ cid < tcidGuestMin)
  (hw : CInfoWifi.ofCoordinate cid coo = some w)
include hmin hw

theorem noticesOf_known (hmem : cid ∈ r.records.map CInfoWifi.cid) :
    r.server.noticesOf (.changeCoordinate cid coo) = [.moved cid coo] := by
  simp only [CWifiServer.noticesOf, hw, if_neg hmin]
  rw [if_pos]
  exact hmem

theorem noticesOf_new (hnew : cid ∉ r.records.map CInfoWifi.cid) :
    r.server.noticesOf (.changeCoordinate cid coo) = .moved cid coo :: r.server.forgetting [w] := by
  simp only [CWifiServer.noticesOf, hw, if_neg hmin]
  rw [if_neg]
  exact hnew

theorem learns_storeCoordinate (h : r.Tidy) :
    Learns r (r.server.noticesOf (.changeCoordinate cid coo)) (r.storeCoordinate w) := by
  obtain ⟨w', hw', hcid, hcoo, hname⟩ := Server.ofCoordinate_eq hmin coo
  cases hw.symm.trans hw'
  subst hcid hcoo
  have hset : ∀ a : CInfoWifi, (a.set w.toCCoordinate).whereabouts =
      { a.whereabouts with place := w.toCCoordinate } := fun a => rfl
  have hkeep : ∀ a : CInfoWifi, (a.set w.toCCoordinate).cid = a.cid := fun a => rfl
  rw [storeCoordinate]
  cases hentries : r.entries.findIdx? (·.cid = w.cid) with
  | some i =>
    have hmem := mem_records_of_entry hentries
    rw [noticesOf_known hmin hw hmem]
    exact learns_amended h hkeep hset rfl rfl (records_amendEntry h hentries)
      (told_moved (directoryOf_isSome hmem))
  | none =>
    cases hstored : r.stored.findIdx? (·.cid = w.cid) with
    | some i =>
      have hmem := mem_records_of_stored hstored
      rw [noticesOf_known hmin hw hmem]
      exact learns_amended h hkeep hset (List.length_modify _ _ _) rfl
        (records_amendStored h hentries hstored) (told_moved (directoryOf_isSome hmem))
    | none =>
      have hnew := not_mem_records_of_findIdx? hentries hstored
      rw [noticesOf_new hmin hw hnew]
      exact learns_remember h hnew hname

end Moved

theorem learns_storeName {cid : TCID} {name : CString} (h : r.Tidy)
    (heq : r.storeName cid name = some r') : Learns r [.named cid name] r' := by
  have hset : ∀ w : CInfoWifi, (w.setName name).whereabouts =
      { w.whereabouts with name := name.resize maxSizeName } := by
    intro w
    rw [CInfoWifi.whereabouts, CInfoWifi.setName_toCCoordinate, CInfoWifi.name_setName]
    rfl
  have hcid : ∀ w : CInfoWifi, (w.setName name).cid = w.cid := fun w => w.setName_cid name
  unfold storeName at heq
  split at heq
  · rename_i i hi
    cases heq
    exact learns_amended h hcid hset rfl rfl (records_amendEntry h hi) rfl
  · rename_i hentries
    obtain ⟨i, hi, rfl⟩ := Option.map_eq_some_iff.mp heq
    exact learns_amended h hcid hset (List.length_modify _ _ _) rfl
      (records_amendStored h hentries hi) rfl

/-- The name of a guest that is not known is not kept. -/
theorem learns_nameless {cid : TCID} {name : CString} (h : r.Tidy)
    (heq : r.storeName cid name = none) : Learns r [.named cid name] r := by
  refine ⟨h, ?_⟩
  unfold storeName at heq
  split at heq
  · cases heq
  · rename_i hentries
    have hnew := not_mem_records_of_findIdx? hentries (Option.map_eq_none_iff.mp heq)
    simp [Directory.told, Directory.note, directoryOf_eq_none hnew]

end Registry

/-- What a request makes of the clients' registry is what its notices tell. -/
theorem Request.learns_effect {h : Held} (htidy : (h.registry false).Tidy) (request : Request) :
    Registry.Learns (h.registry false) ((h.registry false).server.noticesOf request)
      ((request.effect h).registry false) := by
  cases request with
  | question order => exact htidy.learns_nothing
  | distanceBetweenCid cid1 cid2 => exact htidy.learns_nothing
  | packetLoss value => exact htidy.learns_nothing
  | setScale scale => exact htidy.learns_nothing
  | closeAllClient => exact Registry.learns_clear htidy
  | changeCoordinate cid coo =>
    by_cases hmin : cid < tcidGuestMin
    · have hnothing : (h.registry false).server.noticesOf (.changeCoordinate cid coo) = [] := by
        simp only [CWifiServer.noticesOf, if_pos hmin]
        split
        · rfl
        · rfl
      rw [hnothing, effect, if_pos hmin]
      exact htidy.learns_nothing
    · obtain ⟨w, hw, _⟩ := Server.ofCoordinate_eq hmin coo
      rw [effect, if_neg hmin, Held.storeCoordinate, hw]
      exact Registry.learns_storeCoordinate hmin hw htidy
  | setName cid name =>
    by_cases hmin : cid < tcidGuestMin
    · rw [CWifiServer.noticesOf, effect, if_pos hmin, if_pos hmin]
      exact htidy.learns_nothing
    · rw [CWifiServer.noticesOf, effect, if_neg hmin, if_neg hmin, Held.storeName, Server.renamed]
      cases hname : (h.registry false).storeName cid name with
      | some r => exact Registry.learns_storeName htidy hname
      | none =>
        cases (h.registry true).entries.findIdx? (·.cid = cid) with
        | some i => exact Registry.learns_nameless htidy hname
        | none => exact Registry.learns_nameless htidy hname

namespace Config

/-- What a step of the loop tells about the guests. -/
def notices (c : Config) (l : Label) : List Notice :=
  match c.phase with
  | .order => (c.requests l).flatMap c.server.wifiServer.noticesOf
  | .forward false i =>
    match c.server.wifiServer.entries[i]? with
    | none => []
    | some e =>
      if Pass.removes c.server.globals e then c.server.wifiServer.forgetting [e.info] else []
  | _ =>
    match c.acceptOf l false with
    | none => []
    | some (_, cid) => [.joined cid]

/-- A guest connects only when its previous connection has left the registry. -/
def ConnectsApart (c : Config) (l : Label) : Prop :=
  ∀ inc cid, c.acceptOf l false = some (inc, cid) → cid ∉ cids c.server.wifiServer.entries

variable {medium : Medium} {c c' : Config} {l : Label} {v v' : Bool → Registry}

theorem visit_learns {r q r' q' : Registry} {g g' : Globals} {before after : List Entry} {e : Entry}
    {i : TIndex} (h : Pass.VisitCases medium false r q g before e after r' q' g' i)
    (hentries : r.entries = before ++ e :: after) (htidy : r.Tidy) :
    Registry.Learns r (if Pass.removes g e then r.server.forgetting [e.info] else []) r' := by
  cases h with
  | disabled henabled =>
    rw [if_pos (by simp [Pass.removes, henabled])]
    exact Registry.learns_retire htidy hentries
  | unreadable henabled hready hfail =>
    rw [if_pos (by simp [Pass.removes, hready, hfail])]
    exact Registry.learns_retire htidy hentries
  | idle henabled hready =>
    rw [if_neg (by simp [Pass.removes, henabled, hready])]
    exact htidy.learns_nothing
  | forwarded henabled hready hread hbefore hafter hothers =>
    rw [if_neg (by simp [Pass.removes, henabled, hread])]
    apply Registry.learns_weakened htidy
    rw [hentries]
    exact List.rel_append hbefore.weakened
      (List.Forall₂.cons (Entry.Weakened.refl e) hafter.weakened)

theorem visit_learns_other {r q r' q' : Registry} {g g' : Globals} {before after : List Entry}
    {e : Entry} {i : TIndex} (h : Pass.VisitCases medium true r q g before e after r' q' g' i)
    (htidy : q.Tidy) : Registry.Learns q [] q' := by
  cases h with
  | disabled => exact htidy.learns_nothing
  | unreadable => exact htidy.learns_nothing
  | idle => exact htidy.learns_nothing
  | forwarded _ _ _ _ _ hothers => exact Registry.learns_weakened htidy hothers.weakened

theorem notices_skips {phase : Phase} (hv : c.Sees v) (hskip : Skips c.server c.phase phase)
    (hl : l = .skip ∨ l = .refused) : c.notices l = [] := by
  obtain ⟨phase₀, s⟩ := c
  have hserver : s.wifiServer = (v false).server := hv.views false
  cases hskip with
  | vtcp => rcases hl with rfl | rfl <;> rfl
  | itcp => rcases hl with rfl | rfl <;> rfl
  | spy => rcases hl with rfl | rfl <;> rfl
  | order => rcases hl with rfl | rfl <;> rfl
  | forwarded srcIsSpy i h =>
    cases srcIsSpy with
    | true => rcases hl with rfl | rfl <;> rfl
    | false =>
      have hnone : s.wifiServer.entries[i]? = none := by
        apply List.getElem?_eq_none
        have hcount : s.wifiServer.getNumberClient ≤ i := h
        rw [hserver] at hcount ⊢
        rwa [Registry.server_entries, ← Registry.server_getNumberClient]
      simp only [notices, hnone]

theorem notices_accepts {phase : Phase} {isSpy : Bool} {inc : Incoming} {cid : TCID}
    (h : Accepts c.server c.phase l phase isSpy inc cid) :
    c.notices l = if isSpy then [] else [.joined cid] := by
  obtain ⟨phase₀, s⟩ := c
  cases h <;> rfl

theorem step_learns (hv : c.Sees v) (hv' : c'.Sees v') (hstep : step medium c l = some c')
    (hcases : StepCases medium c l v c' v') (hapart : c.ConnectsApart l) (htidy : (v false).Tidy) :
    Registry.Learns (v false) (c.notices l) (v' false) := by
  have hserver : c.server.wifiServer = (v false).server := hv.views false
  cases hcases with
  | select r hphase hlabel =>
    have hnotices : c.notices l = [] := by simp only [notices, acceptOf, hphase, hlabel]
    rw [hnotices]
    exact htidy.learns_nothing
  | skip hskip hlabel =>
    rw [notices_skips hv hskip hlabel]
    exact htidy.learns_nothing
  | @accept _ isSpy inc cid r haccept hunused hconnect =>
    rw [notices_accepts haccept]
    cases isSpy with
    | true => exact htidy.learns_nothing
    | false =>
      have hof : c.acceptOf l false = some (inc, cid) := haccept.acceptOf false
      have habsent := hapart inc cid hof
      rw [hv.entries] at habsent
      exact Registry.learns_connect htidy habsent hconnect
  | @order inc stack s' _ hphase hlabel hready hunused hreceived =>
    subst hlabel
    have hnotices : c.notices (.order inc stack) =
        (Request.askedOrder stack inc.inbox).toList.flatMap (v false).server.noticesOf := by
      simp only [notices, requests, hphase, hserver]
    rw [hnotices, order_step_asked hv hphase hstep hv'.views]
    cases Request.askedOrder stack inc.inbox with
    | none => exact htidy.learns_nothing
    | some request =>
      have hlearns := @Request.learns_effect ⟨v, c.server.globals.canLostPackets,
        c.server.globals.scale⟩ htidy request
      rw [Option.toList_some, List.flatMap_singleton]
      exact hlearns
  | @visit srcIsSpy before after e r q g i hphase hlabel hentries hvisit =>
    cases srcIsSpy with
    | true =>
      have hnotices : c.notices l = [] := by simp only [notices, acceptOf, hphase]
      rw [hnotices]
      exact visit_learns_other hvisit htidy
    | false =>
      have hget : (v false).server.entries[before.length]? = some e := by
        rw [Registry.server_entries, hentries]
        simp
      have hnotices : c.notices l = if Pass.removes c.server.globals e then
          (v false).server.forgetting [e.info] else [] := by
        simp only [notices, hphase, hserver, hget]
      rw [hnotices, Function.update_of_ne (by simp), Function.update_self]
      exact visit_learns hvisit hentries htidy

/-! ## Runs -/

section Runs

variable {setup : Setup} {ls : List Label}

theorem run_learns (hrun : Lts.run (step medium) (init setup) ls = some c)
    (hapart : Lts.Steps (step medium) ConnectsApart (init setup) ls) :
    ∃ v, c.Sees v ∧ Ledger v c.server.kernel.log ∧ Registry.Learns (initialView false)
      (Lts.outputs (step medium) notices (init setup) ls) (v false) := by
  have hinit : Registry.Learns (initialView false) [] (initialView false) :=
    ⟨⟨Nat.zero_le _, List.nodup_nil⟩, rfl⟩
  refine @Lts.outputs_invariant _ _ (step medium) _ notices
    (fun c told => ∃ v, c.Sees v ∧ Ledger v c.server.kernel.log ∧
      Registry.Learns (initialView false) told (v false))
    ConnectsApart (init setup) c ls [] ?_
    ⟨initialView, init_sees setup, init_ledger setup, hinit⟩ hapart hrun
  intro c told l c' hinv happart hstep
  obtain ⟨v, hv, hl, htold⟩ := hinv
  obtain ⟨v', hv', hcases⟩ := step_cases hv hstep
  obtain ⟨_, hflow, _⟩ := step_flow hv hcases
  have hlearns := step_learns hv hv' hstep hcases happart htold.tidy
  refine ⟨v', hv', hflow.ledger hl, hlearns.tidy, ?_⟩
  rw [Directory.told_append, ← htold.directory, hlearns.directory]

/-- As long as no guest connects whose previous connection is still registered, the
server holds one record of each guest it knows, and it knows of all guests exactly what
it has been told. -/
theorem directory_refined (hrun : Lts.run (step medium) (init setup) ls = some c)
    (hapart : Lts.Steps (step medium) ConnectsApart (init setup) ls) :
    (c.server.wifiServer.records.map CInfoWifi.cid).Nodup ∧
      c.server.wifiServer.directory =
        Directory.empty.told (Lts.outputs (step medium) notices (init setup) ls) := by
  obtain ⟨v, hv, _, hlearns⟩ := run_learns hrun hapart
  have hserver : c.server.wifiServer = (v false).server := hv.views false
  rw [CWifiServer.directory, hserver]
  exact ⟨hlearns.tidy.distinct, hlearns.directory⟩

end Runs

theorem connectsApart_of_check {c : Config} {l : Label}
    (h : (match c.acceptOf l false with
      | none => true
      | some (_, cid) => decide (cid ∉ cids c.server.wifiServer.entries)) = true) :
    c.ConnectsApart l := by
  intro inc cid haccept
  rw [haccept] at h
  exact of_decide_eq_true h

/-- A client connects and is moved. -/
theorem directory_refined_moves : ∃ c,
    Lts.run (step Medium.uniform) (init Setup.tcp) moves = some c ∧
      c.server.wifiServer.directory 4780 = some ⟨⟨1, 2, 3⟩, CString.empty⟩ ∧
      c.server.wifiServer.directory = Directory.empty.told
        (Lts.outputs (step Medium.uniform) notices (init Setup.tcp) moves) := by
  have hapart : Lts.Steps (step Medium.uniform) ConnectsApart (init Setup.tcp) moves :=
    Lts.steps_of_stepsCheck (fun _ _ => connectsApart_of_check) (by decide +kernel)
  have hrun : (Lts.run (step Medium.uniform) (init Setup.tcp) moves).map
      (fun c => c.server.wifiServer.directory 4780) = some (some ⟨⟨1, 2, 3⟩, CString.empty⟩) := by
    decide +kernel
  obtain ⟨c, hc, hplace⟩ := Option.map_eq_some_iff.mp hrun
  exact ⟨c, hc, hplace, (directory_refined hc hapart).2⟩

end Config

end Vwifi
