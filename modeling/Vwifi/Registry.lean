import Vwifi.Lib.Bounded
import Vwifi.WifiServer

/-!
# The registry as one list

`InfoSockets` and `InfoWifis` belong together position by position. `entries`
pairs them, and each operation of a registry is described by what it does to the
pairs and to the list of the disconnected records.
-/

namespace Vwifi

set_option autoImplicit false

structure Entry where
  socket : CInfoSocket
  info : CInfoWifi
deriving DecidableEq

namespace Entry

def cid (e : Entry) : TCID := e.info.cid

def descriptor (e : Entry) : TDescriptor := e.socket.descriptor

def enabled (e : Entry) : Bool := e.socket.enable

def disable (e : Entry) : Entry := { e with socket := e.socket.disableIt }

def amend (f : CInfoWifi → CInfoWifi) (e : Entry) : Entry := { e with info := f e.info }

@[simp] theorem disable_descriptor (e : Entry) : e.disable.descriptor = e.descriptor := rfl

@[simp] theorem disable_enabled (e : Entry) : e.disable.enabled = false := rfl

/-- The enabled entries of a CID. -/
def isLive (cid : TCID) (e : Entry) : Bool := e.enabled && e.cid = cid

@[simp] theorem isLive_iff {cid : TCID} {e : Entry} :
    e.isLive cid = true ↔ e.enabled = true ∧ e.cid = cid := by
  simp [isLive]

end Entry

/-- What a reconnect does to the live list: its first enabled entry of the CID
is disabled. -/
def displace (cid : TCID) : List Entry → List Entry
  | [] => []
  | e :: es => if e.isLive cid then e.disable :: es else e :: displace cid es

theorem displace_of_find?_none {cid : TCID} {es : List Entry}
    (h : es.find? (Entry.isLive cid) = none) : displace cid es = es := by
  induction es with
  | nil => rfl
  | cons e es ih =>
    rw [List.find?_cons] at h
    split at h
    · cases h
    · rename_i hlive
      rw [displace, hlive, ih h]
      rfl

/-- The entry a reconnect disables, in its place. -/
theorem displace_split {cid : TCID} {es : List Entry} {e : Entry}
    (h : es.find? (Entry.isLive cid) = some e) :
    ∃ before after, es = before ++ e :: after ∧
      displace cid es = before ++ e.disable :: after ∧
      e.isLive cid ∧ ∀ a ∈ before, ¬ a.isLive cid := by
  induction es with
  | nil => cases h
  | cons a es ih =>
    rw [List.find?_cons] at h
    split at h
    · rename_i hlive
      cases h
      exact ⟨[], es, rfl, by rw [displace, if_pos hlive]; rfl, hlive, fun _ h => by cases h⟩
    · rename_i hlive
      obtain ⟨before, after, hes, hdis, he, hbefore⟩ := ih h
      refine ⟨a :: before, after, by rw [hes]; rfl, ?_, he, ?_⟩
      · rw [displace, hlive, hdis]
        rfl
      · intro b hb
        rcases List.mem_cons.mp hb with rfl | hb
        · simp [hlive]
        · exact hbefore b hb

@[simp] theorem displace_info (cid : TCID) (es : List Entry) :
    (displace cid es).map Entry.info = es.map Entry.info := by
  induction es with
  | nil => rfl
  | cons e es ih =>
    rw [displace]
    split
    · rfl
    · rw [List.map_cons, ih, List.map_cons]

theorem split_of_getElem? {es : List Entry} {i : Nat} {e : Entry} (h : es[i]? = some e) :
    ∃ before after, es = before ++ e :: after ∧ before.length = i := by
  obtain ⟨hi, rfl⟩ := List.getElem?_eq_some_iff.mp h
  refine ⟨es.take i, es.drop (i + 1), ?_, List.length_take_of_le (Nat.le_of_lt hi)⟩
  rw [List.getElem_cons_drop, List.take_append_drop]

/-! ## The abstract registry -/

/-- A registry whose sockets and records cannot come apart, with room for at
least one disconnected record. -/
structure Registry where
  capacity : Nat
  entries : List Entry
  stored : List CInfoWifi
  positive : 1 ≤ capacity

/-- What every use of a registry keeps: the two vectors have one length, and
`Listen` has set a positive number of disconnected clients. -/
structure CWifiServer.Sound (s : CWifiServer) : Prop where
  aligned : s.infoSockets.length = s.infoWifis.length
  positive : 1 ≤ s.maxClientDeconnected

def CWifiServer.entries (s : CWifiServer) : List Entry :=
  List.zipWith Entry.mk s.infoSockets s.infoWifis

def CWifiServer.connectionsOf (s : CWifiServer) (cid : TCID) : List Entry :=
  s.entries.filter (·.cid = cid)

def CWifiServer.storedOf (s : CWifiServer) (cid : TCID) : List CInfoWifi :=
  s.infoWifisDeconnected.filter (·.cid = cid)

namespace Registry

theorem capacity_pos (isSpy : Bool) : 1 ≤ if isSpy then 1 else wifiMaxDeconnectedClient := by
  cases isSpy <;> decide

/-- The two vectors of a registry. -/
def server (r : Registry) : CWifiServer :=
  ⟨r.capacity, r.entries.map Entry.socket, r.entries.map Entry.info, r.stored⟩

@[simp] theorem server_entries (r : Registry) : r.server.entries = r.entries := by
  simp only [server, CWifiServer.entries, List.zipWith_map, List.zipWith_self]
  exact List.map_id _

@[simp] theorem server_stored (r : Registry) : r.server.infoWifisDeconnected = r.stored := rfl

@[simp] theorem server_getNumberClient (r : Registry) :
    r.server.getNumberClient = r.entries.length := List.length_map _

theorem server_sound (r : Registry) : r.server.Sound where
  aligned := by rw [server, List.length_map, List.length_map]
  positive := r.positive

theorem eq_server {s : CWifiServer} (h : s.Sound) : ∃ r : Registry, r.server = s := by
  obtain ⟨capacity, sockets, infos, stored⟩ := s
  obtain ⟨aligned, positive⟩ := h
  refine ⟨⟨capacity, List.zipWith Entry.mk sockets infos, stored, positive⟩, ?_⟩
  have hsockets : (List.zipWith Entry.mk sockets infos).map Entry.socket = sockets := by
    simp only [List.map_zipWith]
    simp only at aligned
    rw [← List.map_uncurry_zip_eq_zipWith]
    exact List.map_fst_zip (Nat.le_of_eq aligned)
  have hinfos : (List.zipWith Entry.mk sockets infos).map Entry.info = infos := by
    simp only [List.map_zipWith]
    rw [← List.map_uncurry_zip_eq_zipWith]
    exact List.map_snd_zip (Nat.le_of_eq aligned.symm)
  rw [server, hsockets, hinfos]

/-! ## Accept -/

def add (r : Registry) (d : TDescriptor) (info : CInfoWifi) : Registry :=
  { r with entries := r.entries ++ [⟨⟨d, true⟩, info⟩] }

/-- The record a connection of `cid` starts with, and what the search for it
leaves behind. -/
def connect (r : Registry) (d : TDescriptor) (cid : TCID) : Option Registry :=
  match r.stored.find? (·.cid = cid) with
  | some w => some ({ r with stored := r.stored.eraseP (·.cid = cid) }.add d w)
  | none =>
    match r.entries.find? (Entry.isLive cid) with
    | some e => some ({ r with entries := displace cid r.entries }.add d e.info)
    | none => (CInfoWifi.default.setCid cid).map (r.add d)

theorem pushInfoWifi_recovered {s : CWifiServer} {w : CInfoWifi} {cid : TCID} (h : w.cid = cid) :
    s.pushInfoWifi cid ((CInfoWifi.default.set w.toCCoordinate).setName w.name) =
      some { s with infoWifis := s.infoWifis ++ [w] } := by
  subst h
  have hset : ((CInfoWifi.default.set w.toCCoordinate).setName w.name).setCid w.cid = some w := by
    rw [CInfoWifi.setName, dif_pos w.nameOk, CInfoWifi.setCid, dif_pos w.cidOk]
    rfl
  rw [CWifiServer.pushInfoWifi, hset]

/-- The search of `RecoverInfosOfInfoWifi`, from the place it has come to. -/
theorem recoverLoop_eq {s : CWifiServer} {tail : List CInfoSocket} (cid : TCID)
    (before after : List Entry)
    (h : s.infoSockets = (before ++ after).map Entry.socket ++ tail) :
    s.recoverLoop cid before.length (after.map Entry.info) =
      some ((after.find? (Entry.isLive cid)).map fun e =>
        (before.length + after.findIdx (Entry.isLive cid), e.info)) := by
  induction after generalizing before with
  | nil => rfl
  | cons e after ih =>
    have hget : s.isEnable before.length = some e.enabled := by
      have hlen : before.length = (before.map Entry.socket).length := by rw [List.length_map]
      rw [CWifiServer.isEnable, h, List.map_append, List.append_assoc, hlen,
        List.getElem?_append_right (Nat.le_refl _), Nat.sub_self]
      rfl
    rw [List.map_cons, CWifiServer.recoverLoop]
    simp only [hget]
    by_cases hlive : e.isLive cid
    · have hif : e.enabled = true ∧ e.info.cid = cid := Entry.isLive_iff.mp hlive
      rw [if_pos hif, List.find?_cons_of_pos hlive, List.findIdx_cons, hlive]
      rfl
    · have hif : ¬ (e.enabled = true ∧ e.info.cid = cid) := fun hc =>
        hlive (Entry.isLive_iff.mpr hc)
      have hnext := ih (before ++ [e]) (by rw [h, List.append_assoc, List.singleton_append])
      rw [List.length_append, List.length_singleton] at hnext
      rw [if_neg hif, hnext, List.find?_cons_of_neg hlive, List.findIdx_cons]
      simp only [hlive, cond_false]
      congr 2
      funext a
      rw [Nat.add_assoc, Nat.add_comm 1]

theorem modify_displace {cid : TCID} {es : List Entry} {e : Entry} (tail : List CInfoSocket)
    (h : es.find? (Entry.isLive cid) = some e) :
    (es.map Entry.socket ++ tail).modify (es.findIdx (Entry.isLive cid)) CInfoSocket.disableIt =
      (displace cid es).map Entry.socket ++ tail := by
  induction es with
  | nil => cases h
  | cons a es ih =>
    by_cases hlive : a.isLive cid
    · rw [List.findIdx_cons, hlive, displace, if_pos hlive]
      rfl
    · rw [List.find?_cons_of_neg hlive] at h
      rw [List.findIdx_cons, displace, if_neg hlive]
      simp only [hlive, cond_false]
      rw [List.map_cons, List.cons_append, List.modify_succ_cons, ih h]
      rfl

theorem findIdx_lt {cid : TCID} {es : List Entry} {e : Entry}
    (h : es.find? (Entry.isLive cid) = some e) : es.findIdx (Entry.isLive cid) < es.length :=
  List.findIdx_lt_length_of_exists ⟨e, List.mem_of_find?_eq_some h, List.find?_some h⟩

theorem recoverInfosOfInfoWifi_eq (capacity : Nat) (es : List Entry) (tail : List CInfoSocket)
    (stored : List CInfoWifi) (cid : TCID) :
    CWifiServer.recoverInfosOfInfoWifi
        ⟨capacity, es.map Entry.socket ++ tail, es.map Entry.info, stored⟩ cid =
      some ((es.find? (Entry.isLive cid)).map fun e =>
        (e.info.toCCoordinate, e.info.name,
          ⟨capacity, (displace cid es).map Entry.socket ++ tail, es.map Entry.info, stored⟩)) := by
  have hloop := @recoverLoop_eq
    ⟨capacity, es.map Entry.socket ++ tail, es.map Entry.info, stored⟩ tail cid [] es rfl
  rw [List.length_nil] at hloop
  unfold CWifiServer.recoverInfosOfInfoWifi
  simp only [hloop]
  cases hfind : es.find? (Entry.isLive cid) with
  | none => rfl
  | some e =>
    have hlt : es.findIdx (Entry.isLive cid) < (es.map Entry.socket ++ tail).length := by
      have := findIdx_lt hfind
      rw [List.length_append, List.length_map]
      omega
    simp only [Option.map_some, Nat.zero_add, CWifiServer.disableClient, if_pos hlt,
      modify_displace tail hfind]

/-- `Accept` refines `connect`. -/
theorem accept_server (r : Registry) (d : TDescriptor) (cid : TCID) :
    r.server.accept d cid = (r.connect d cid).map server := by
  unfold CWifiServer.accept connect CWifiServer.recoverInfosOfInfoWifiDeconnected
  simp only [server_stored]
  cases hstored : r.stored.find? (·.cid = cid) with
  | some w =>
    have hw : w.cid = cid := by simpa using List.find?_some hstored
    simp only [pushInfoWifi_recovered hw]
    simp [server, add]
  | none =>
    simp only [server, recoverInfosOfInfoWifi_eq]
    cases hlive : r.entries.find? (Entry.isLive cid) with
    | some e =>
      have he : e.info.cid = cid := (Entry.isLive_iff.mp (List.find?_some hlive)).2
      simp only [Option.map_some, pushInfoWifi_recovered he]
      simp [server, add]
    | none =>
      simp only [Option.map_none, CWifiServer.pushInfoWifi]
      cases CInfoWifi.default.setCid cid with
      | none => rfl
      | some w => simp [server, add]

/-! ## CloseClient -/

theorem addInfoWifiDeconnected_eq {s : CWifiServer} (w : CInfoWifi)
    (h : 1 ≤ s.maxClientDeconnected) :
    s.addInfoWifiDeconnected w = some { s with
      infoWifisDeconnected := Bounded.push s.maxClientDeconnected s.infoWifisDeconnected w } := by
  unfold CWifiServer.addInfoWifiDeconnected Bounded.push
  split
  · rename_i hfull
    cases hstored : s.infoWifisDeconnected with
    | nil =>
      rw [hstored, List.length_nil] at hfull
      exact absurd (Nat.le_trans h hfull) (Nat.not_succ_le_zero 0)
    | cons a rest => rfl
  · rfl

/-- The entry `e` leaves the live list and its record is kept. -/
def retire (r : Registry) (before : List Entry) (e : Entry) (after : List Entry) : Registry :=
  { r with
    entries := before ++ after
    stored := Bounded.push r.capacity r.stored e.info }

/-- What `Close` does to the descriptor of an entry: nothing when it is disabled. -/
def release (k : Kernel) (e : Entry) : Kernel :=
  if e.enabled then k.close e.descriptor else k

theorem closeClient_server (k : Kernel) {r : Registry} {before after : List Entry} {e : Entry}
    (h : r.entries = before ++ e :: after) :
    r.server.closeClient k before.length =
      some (release k e, (r.retire before e after).server) := by
  have hsocket : (r.entries.map Entry.socket)[before.length]? = some e.socket := by
    rw [h]
    simp
  have hinfo : (r.entries.map Entry.info)[before.length]? = some e.info := by
    rw [h]
    simp
  have hclose : (e.socket.close k).1 = release k e := by
    unfold CInfoSocket.close release Entry.enabled
    split <;> rfl
  have herase : ∀ {β : Type} (f : Entry → β),
      (r.entries.map f).eraseIdx before.length = (before ++ after).map f := by
    intro β f
    rw [h, List.map_append, List.map_append, List.map_cons, List.eraseIdx_append_of_length_le]
    · simp
    · simp
  simp only [CWifiServer.closeClient, CWifiServer.closeSocket, server, hsocket, hinfo, hclose]
  rw [addInfoWifiDeconnected_eq e.info r.positive]
  simp only [herase, retire]

/-- All entries leave the live list, the first one first. -/
def clear (r : Registry) : Registry :=
  { r with
    entries := []
    stored := Bounded.pushAll r.capacity r.stored (r.entries.map Entry.info) }

theorem closeLoop_server (n : Nat) (k : Kernel) (r : Registry) (h : r.entries.length = n) :
    CWifiServer.closeLoop n k r.server = some (r.entries.foldl release k, r.clear.server) := by
  induction n generalizing k r with
  | zero =>
    have hnil : r.entries = [] := List.length_eq_zero_iff.mp h
    simp [CWifiServer.closeLoop, clear, server, hnil, Bounded.pushAll]
  | succ n ih =>
    cases hentries : r.entries with
    | nil =>
      rw [hentries, List.length_nil] at h
      omega
    | cons e after =>
      have hclose := @closeClient_server k r [] after e hentries
      rw [List.length_nil] at hclose
      have hlen : (r.retire [] e after).entries.length = n := by
        rw [hentries, List.length_cons] at h
        exact Nat.succ.inj h
      have hclear : (r.retire [] e after).clear = r.clear := by
        simp [clear, retire, hentries, Bounded.pushAll]
      rw [CWifiServer.closeLoop, hclose]
      simp only [ih _ _ hlen, hclear]
      rfl

theorem closeAllClient_server (k : Kernel) (r : Registry) :
    r.server.closeAllClient k = some (r.entries.foldl release k, r.clear.server) := by
  rw [CWifiServer.closeAllClient, server_getNumberClient]
  exact closeLoop_server _ k r rfl

end Registry

/-- `CloseAllClient` closes everything and keeps the newest records, as many as there
is room for, of those that were disconnected before and those of the clients. -/
theorem CWifiServer.closeAllClient_keeps (k : Kernel) {s : CWifiServer}
    (haligned : s.infoSockets.length = s.infoWifis.length) (hpositive : 1 ≤ s.maxClientDeconnected)
    (hroom : s.infoWifisDeconnected.length ≤ s.maxClientDeconnected) :
    ∃ k', s.closeAllClient k = some (k', { s with
      infoSockets := []
      infoWifis := []
      infoWifisDeconnected := Bounded.latest
        (min s.maxClientDeconnected (s.infoWifisDeconnected.length + s.getNumberClient))
        (s.infoWifisDeconnected ++ s.infoWifis) }) := by
  obtain ⟨r, rfl⟩ := Registry.eq_server ⟨haligned, hpositive⟩
  refine ⟨r.entries.foldl Registry.release k, ?_⟩
  rw [Registry.closeAllClient_server, Registry.server_getNumberClient]
  have hpushed := @Bounded.pushAll_eq_latest _ r.capacity r.stored (r.entries.map Entry.info)
    r.positive hroom
  rw [List.length_map] at hpushed
  simp only [Registry.clear, Registry.server, List.map_nil, hpushed]

/-- Two clients are closed, and the older record gives way. -/
theorem CWifiServer.closeAllClient_keeps_two :
    ∃ k', closeAllClient ⟨fun _ => [], fun _ => [], [], fun _ => 0, [.accept 10]⟩
        ⟨2, [⟨10, true⟩, ⟨11, false⟩],
        [CInfoWifi.default.set ⟨1, 0, 0⟩, CInfoWifi.default.set ⟨2, 0, 0⟩],
        [CInfoWifi.default.set ⟨3, 0, 0⟩]⟩ =
      some (k', ⟨2, [], [],
        [CInfoWifi.default.set ⟨1, 0, 0⟩, CInfoWifi.default.set ⟨2, 0, 0⟩]⟩) :=
  closeAllClient_keeps _ rfl (by decide) (by decide)

namespace Registry

/-! ## Records -/

theorem getElem?_infoWifis (r : Registry) (i : TIndex) :
    r.server.infoWifis[i]? = (r.entries[i]?).map Entry.info := List.getElem?_map

theorem showInfoWifi_server (r : Registry) (i : TIndex) :
    r.server.showInfoWifi i = (r.entries[i]?).map Entry.info := by
  rw [CWifiServer.showInfoWifi, getElem?_infoWifis, server_getNumberClient]
  split
  · rfl
  · rename_i h
    rw [List.getElem?_eq_none (Nat.le_of_not_lt h)]
    rfl

theorem getReferenceOnInfoWifiByIndex_server (r : Registry) (i : TIndex) :
    r.server.getReferenceOnInfoWifiByIndex i = (r.entries[i]?).map Entry.info :=
  showInfoWifi_server r i

/-- The record of a new connection is the last one, and can be shown. -/
theorem connect_shown {r r' : Registry} {d : TDescriptor} {cid : TCID}
    (h : r.connect d cid = some r') :
    ∃ w, r'.server.showInfoWifi (r'.server.getNumberClient - 1) = some w := by
  have hadd : ∀ (r : Registry) (w : CInfoWifi),
      (r.add d w).server.showInfoWifi ((r.add d w).server.getNumberClient - 1) = some w := by
    intro r w
    rw [showInfoWifi_server, server_getNumberClient, add, List.length_append,
      List.length_singleton, Nat.add_sub_cancel, List.getElem?_concat_length]
    rfl
  unfold connect at h
  split at h
  · cases h
    exact ⟨_, hadd _ _⟩
  · split at h
    · cases h
      exact ⟨_, hadd _ _⟩
    · obtain ⟨w, _, rfl⟩ := Option.map_eq_some_iff.mp h
      exact ⟨w, hadd _ _⟩

theorem getSocketClient_server (r : Registry) (i : TIndex) :
    r.server.getSocketClient i = (r.entries[i]?).map Entry.descriptor := by
  rw [CWifiServer.getSocketClient, server, List.getElem?_map, Option.map_map]
  rfl

theorem isEnable_server (r : Registry) (i : TIndex) :
    r.server.isEnable i = (r.entries[i]?).map Entry.enabled := by
  rw [CWifiServer.isEnable, server, List.getElem?_map, Option.map_map]
  rfl

/-! ## Updates of a record -/

def amendEntry (r : Registry) (i : Nat) (f : CInfoWifi → CInfoWifi) : Registry :=
  { r with entries := r.entries.modify i (Entry.amend f) }

def amendStored (r : Registry) (i : Nat) (f : CInfoWifi → CInfoWifi) : Registry :=
  { r with stored := r.stored.modify i f }

def remember (r : Registry) (w : CInfoWifi) : Registry :=
  { r with stored := Bounded.push r.capacity r.stored w }

/-- The coordinate of `w` goes into the first record of its CID, and `w` itself
among the disconnected records when there is none. -/
def storeCoordinate (r : Registry) (w : CInfoWifi) : Registry :=
  match r.entries.findIdx? (·.cid = w.cid) with
  | some i => r.amendEntry i (·.set w.toCCoordinate)
  | none =>
    match r.stored.findIdx? (·.cid = w.cid) with
    | some i => r.amendStored i (·.set w.toCCoordinate)
    | none => r.remember w

def storeName (r : Registry) (cid : TCID) (name : CString) : Option Registry :=
  match r.entries.findIdx? (·.cid = cid) with
  | some i => some (r.amendEntry i (·.setName name))
  | none => (r.stored.findIdx? (·.cid = cid)).map fun i => r.amendStored i (·.setName name)

theorem getReferenceOnInfoWifiByCID_server (r : Registry) (cid : TCID) :
    r.server.getReferenceOnInfoWifiByCID cid = r.entries.findIdx? (·.cid = cid) := by
  rw [CWifiServer.getReferenceOnInfoWifiByCID, server, List.findIdx?_map]
  rfl

theorem modify_info (es : List Entry) (i : Nat) (f : CInfoWifi → CInfoWifi) :
    (es.map Entry.info).modify i f = (es.modify i (Entry.amend f)).map Entry.info := by
  induction es generalizing i with
  | nil => simp
  | cons e es ih =>
    cases i with
    | zero => rfl
    | succ i => rw [List.map_cons, List.modify_succ_cons, ih, List.modify_succ_cons, List.map_cons]

theorem modify_socket (es : List Entry) (i : Nat) (f : CInfoWifi → CInfoWifi) :
    (es.modify i (Entry.amend f)).map Entry.socket = es.map Entry.socket := by
  induction es generalizing i with
  | nil => simp
  | cons e es ih =>
    cases i with
    | zero => rfl
    | succ i => rw [List.modify_succ_cons, List.map_cons, ih, List.map_cons]

theorem server_amendEntry (r : Registry) (i : Nat) (f : CInfoWifi → CInfoWifi) :
    { r.server with infoWifis := r.server.infoWifis.modify i f } = (r.amendEntry i f).server := by
  simp only [server, amendEntry, modify_info, modify_socket]

end Registry

end Vwifi
