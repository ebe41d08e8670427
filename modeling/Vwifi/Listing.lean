import Vwifi.CtrlServer
import Vwifi.Registry

/-!
# What the answers to a control client consist of

Every answer is a list of fields, sent one after the other up to the first that
fails. `sendList_eq` says which fields `SendList` sends.
-/

namespace Vwifi

set_option autoImplicit false

open LittleEndian

namespace Server

/-- Between `s` and `s'` there were only calls of `send` on `d`. -/
structure Sends (d : TDescriptor) (s s' : Server) : Prop where
  server : s' = s.withKernel s'.kernel
  inbox : s'.kernel.inbox = s.kernel.inbox
  log : ∃ acts, s'.kernel.log = s.kernel.log ++ acts ∧
    ∀ a ∈ acts, ∃ data taken, a = .send d data taken

namespace Sends

variable {d : TDescriptor} {s s' s'' : Server}

theorem refl (d : TDescriptor) (s : Server) : Sends d s s :=
  ⟨rfl, rfl, [], (List.append_nil _).symm, fun _ ha => absurd ha List.not_mem_nil⟩

theorem trans (h : Sends d s s') (h' : Sends d s' s'') : Sends d s s'' := by
  obtain ⟨acts, hlog, hacts⟩ := h.log
  obtain ⟨acts', hlog', hacts'⟩ := h'.log
  refine ⟨?_, h'.inbox.trans h.inbox, acts ++ acts', ?_, ?_⟩
  · have hserver := h'.server
    rw [h.server] at hserver
    exact hserver
  · rw [hlog', hlog, List.append_assoc]
  · intro a ha
    rcases List.mem_append.mp ha with ha | ha
    · exact hacts a ha
    · exact hacts' a ha

end Sends

variable {d : TDescriptor} {s s' : Server}

theorem send_sends (s : Server) (d : TDescriptor) (data : List UInt8) :
    Sends d s (s.send d data).2 := by
  refine ⟨rfl, rfl, [.send d data (s.kernel.send d data).1], rfl, ?_⟩
  intro a ha
  exact ⟨_, _, List.mem_singleton.mp ha⟩

/-- Sends in order, and whether all succeed. -/
def sendAll (d : TDescriptor) : List (List UInt8) → Server → Bool × Server
  | [], s => (true, s)
  | field :: rest, s =>
    match s.send d field with
    | (false, s) => (false, s)
    | (true, s) => sendAll d rest s

theorem sendAll_sends (d : TDescriptor) (fields : List (List UInt8)) (s : Server) :
    Sends d s (sendAll d fields s).2 := by
  induction fields generalizing s with
  | nil => exact Sends.refl d s
  | cons field rest ih =>
    have hsend := send_sends s d field
    rw [sendAll]
    split <;> rename_i heq <;> rw [heq] at hsend
    · exact hsend
    · exact hsend.trans (ih _)

theorem sendAll_append (d : TDescriptor) (xs ys : List (List UInt8)) (s : Server) :
    sendAll d (xs ++ ys) s =
      match sendAll d xs s with
      | (false, s) => (false, s)
      | (true, s) => sendAll d ys s := by
  induction xs generalizing s with
  | nil => rfl
  | cons x xs ih =>
    rw [List.cons_append, sendAll, sendAll]
    rcases s.send d x with ⟨_ | _, s₁⟩
    · rfl
    · exact ih s₁

theorem sendFields_eq (d : TDescriptor) (fields : List (List UInt8)) (s : Server) :
    sendFields d fields s = (sendAll d fields s).2 := by
  induction fields generalizing s with
  | nil => rfl
  | cons field rest ih =>
    rw [sendFields, sendAll]
    rcases s.send d field with ⟨_ | _, s₁⟩
    · rfl
    · exact ih s₁

/-! ## SendList -/

/-- The fields of one record; an empty name is not sent. -/
def recordFields (w : CInfoWifi) : List (List UInt8) :=
  [image 4 w.cid.toNat, w.toCCoordinate.bytes, sizeNameBytes w] ++
    if 0 < w.name.bytes.length then [w.name.bytes ++ [0]] else []

def entriesFields (es : List Entry) : List (List UInt8) :=
  (es.filter Entry.enabled).flatMap fun e => recordFields e.info

/-- One half of the list: the number of all entries, then the enabled ones. -/
def registryFields (r : Registry) : List (List UInt8) :=
  image 4 r.entries.length :: entriesFields r.entries

theorem sendCInfoWifi_eq (s : Server) (d : TDescriptor) (w : CInfoWifi) :
    s.sendCInfoWifi d w = sendAll d (recordFields w) s := by
  simp only [sendCInfoWifi, recordFields, List.cons_append, List.nil_append, sendAll]
  rcases s.send d (image 4 w.cid.toNat) with ⟨_ | _, s₁⟩
  · rfl
  · dsimp only
    rcases s₁.send d w.toCCoordinate.bytes with ⟨_ | _, s₂⟩
    · rfl
    · dsimp only
      rcases s₂.send d (sizeNameBytes w) with ⟨_ | _, s₃⟩
      · rfl
      · dsimp only
        by_cases hname : 0 < w.name.bytes.length
        · rw [if_pos hname, if_pos hname, sendAll]
          rcases s₃.send d (w.name.bytes ++ [0]) with ⟨_ | _, s₄⟩ <;> rfl
        · rw [if_neg hname, if_neg hname]
          rfl

theorem sendInfos_eq (d : TDescriptor) {r : Registry} (before after : List Entry) (s : Server)
    (h : r.entries = before ++ after) :
    sendInfos d r.server (List.range' before.length after.length) s =
      some (sendAll d (entriesFields after) s) := by
  induction after generalizing before s with
  | nil => rfl
  | cons e after ih =>
    have hget : r.entries[before.length]? = some e := by
      rw [h]
      simp
    have hnext := fun s => ih (before ++ [e]) s
      (by rw [h, List.append_assoc, List.singleton_append])
    rw [List.length_append, List.length_singleton] at hnext
    rw [List.length_cons, List.range'_succ, sendInfos, Registry.isEnable_server, hget,
      Option.map_some]
    cases henabled : e.enabled with
    | false =>
      have hskip : entriesFields (e :: after) = entriesFields after := by
        rw [entriesFields, List.filter_cons, henabled]
        rfl
      rw [hskip]
      exact hnext s
    | true =>
      have hfields : entriesFields (e :: after) = recordFields e.info ++ entriesFields after := by
        rw [entriesFields, List.filter_cons, henabled]
        rfl
      rw [Registry.getReferenceOnInfoWifiByIndex_server, hget, hfields, sendAll_append]
      simp only [Option.map_some, sendCInfoWifi_eq]
      rcases sendAll d (recordFields e.info) s with ⟨_ | _, s₁⟩
      · rfl
      · exact hnext s₁

theorem sendRegistry_eq (d : TDescriptor) (r : Registry) (s : Server) :
    sendRegistry d r.server s = some (sendAll d (registryFields r) s) := by
  have hinfos := fun s => @sendInfos_eq d r [] r.entries s rfl
  simp only [List.length_nil, ← List.range_eq_range'] at hinfos
  rw [sendRegistry, registryFields, sendAll, Registry.server_getNumberClient]
  rcases s.send d (image 4 r.entries.length) with ⟨_ | _, s₁⟩
  · rfl
  · exact hinfos s₁

/-- `SendList` sends the spies, then the clients. -/
theorem sendList_eq {spies clients : Registry} (hspy : s.wifiServerSPY = spies.server)
    (hwifi : s.wifiServer = clients.server) (d : TDescriptor) :
    s.sendList d = some (sendAll d (registryFields spies ++ registryFields clients) s).2 := by
  have hsends := sendAll_sends d (registryFields spies) s
  rw [sendList, hspy, sendRegistry_eq, sendAll_append]
  cases hfirst : sendAll d (registryFields spies) s with
  | mk ok s₁ =>
    rw [hfirst] at hsends
    cases ok with
    | false => rfl
    | true =>
      have hwifi₁ : s₁.wifiServer = clients.server := by
        have hsame := congrArg wifiServer hsends.server
        exact hsame.trans hwifi
      simp only [hwifi₁, sendRegistry_eq]
      rfl

end Server

end Vwifi
