import Vwifi.Devices
import Vwifi.Lib.Lts

/-!
# The device list against what the kernel reported

An interface enters the list by its index and the answer of `ioctl`, whatever its
name is; it leaves the list only when the message that deletes it has an address
and a name that looks like `wlan0`. The run is recorded with what was heard of
each index.
-/

namespace Vwifi

set_option autoImplicit false

/-- What the client hears of an interface. -/
inductive Heard where
  | reported (r : Report)
  | deleted (link : Link)

namespace Heard

/-- The interface it is about. -/
def index : Heard → Option Int
  | reported r => r.attrs.ifindex.map intOf
  | deleted link => some (intOf link.ifiIndex)

/-- The last that was heard of the interface `i`. -/
def latest (history : List Heard) (i : Int) : Option Heard :=
  history.reverse.find? (·.index = some i)

theorem latest_append (history : List Heard) (h : Heard) (i : Int) :
    latest (history ++ [h]) i = if h.index = some i then some h else latest history i := by
  rw [latest, List.reverse_append, List.reverse_singleton, List.singleton_append, List.find?_cons]
  by_cases hi : h.index = some i
  · simp [hi]
  · simp [hi, latest]

end Heard

/-- The device is what the report says, whatever address it has in the driver. -/
def WirelessDevice.Matches (d : WirelessDevice) (r : Report) : Prop :=
  Interfaces.deviceOf r.attrs = some { d with machwsim := d.macaddr }

namespace Interfaces

/-- What is heard of an interface in an event: a message about a new link only
makes the client ask, and then only for some names. -/
def heard : Event → Option Heard
  | .report r => some (.reported r)
  | .newLink link stack reply => if asksInfos link stack then reply.map .reported else none
  | .delLink link => some (.deleted link)

/-- The device a report adds to the list. -/
def added (r : Report) : Option WirelessDevice :=
  (deviceOf r.attrs).bind fun d => (getPmaddr r.permAddr).map d.setMachwsim

/-- Whether the message takes its interface off the list: it needs a name that
matches and an address. -/
def removes (link : Link) : Bool :=
  match link.ifname, link.address with
  | some name, some macaddr =>
    (WirelessDevice.ofMac name (intOf link.ifiIndex) link.ifiType.toNat macaddr
      0).checkifWirelessDevice
  | _, _ => false

/-- No entry is left of an interface that was deleted, and every entry is what was
last reported of its index. -/
structure Current (history : List Heard) (s : Interfaces) : Prop where
  deleted : ∀ i link, Heard.latest history i = some (.deleted link) →
    s.listWinterfaces.find? i = none
  reported : ∀ i d, s.listWinterfaces.find? i = some d →
    ∃ r, Heard.latest history i = some (.reported r) ∧ d.Matches r

/-- An interface that is on the list is recognised when it is deleted, and when it
is reported its permanent address is found, unless nothing new is reported. -/
def Recognises (s : Interfaces) (e : Event) : Prop :=
  match heard e with
  | none => True
  | some (.deleted link) =>
    s.listWinterfaces.find? (intOf link.ifiIndex) ≠ none → removes link = true
  | some (.reported r) =>
    ∀ i d, (Heard.reported r).index = some i → s.listWinterfaces.find? i = some d →
      added r ≠ none ∨ d.Matches r

/-- The run with what was heard so far. -/
def stepHeard (p : Interfaces × List Heard) (e : Event) : Option (Interfaces × List Heard) :=
  some (p.1.handle e, p.2 ++ (heard e).toList)

/-! ## What the handlers do to the list -/

theorem registerDevice_list (s : Interfaces) (d : WirelessDevice) (permAddr : Option (List UInt8)) :
    (s.registerDevice d permAddr).listWinterfaces =
      match (getPmaddr permAddr).map d.setMachwsim with
      | none => s.listWinterfaces
      | some d' => s.listWinterfaces.insert d'.index d' := by
  unfold registerDevice
  cases getPmaddr permAddr <;> rfl

theorem recvWinterfaceInfos_list (s : Interfaces) (r : Report) :
    (s.recvWinterfaceInfos r).listWinterfaces =
      match added r with
      | none => s.listWinterfaces
      | some d => s.listWinterfaces.insert d.index d := by
  unfold recvWinterfaceInfos added
  cases deviceOf r.attrs with
  | none => rfl
  | some d =>
    dsimp only [Option.bind_some]
    split
    · exact registerDevice_list s d r.permAddr
    · exact registerDevice_list s d r.permAddr

theorem delNetInterface_list (s : Interfaces) (link : Link) :
    (s.delNetInterface link).listWinterfaces =
      if removes link then s.listWinterfaces.erase (intOf link.ifiIndex)
      else s.listWinterfaces := by
  unfold delNetInterface removes
  cases link.ifname with
  | none => rfl
  | some name =>
    cases link.address with
    | none => rfl
    | some macaddr =>
      dsimp only
      split <;> rfl

theorem handle_list (s : Interfaces) (e : Event) :
    (s.handle e).listWinterfaces =
      match heard e with
      | none => s.listWinterfaces
      | some (.reported r) => (s.recvWinterfaceInfos r).listWinterfaces
      | some (.deleted link) => (s.delNetInterface link).listWinterfaces := by
  cases e with
  | report r => rfl
  | delLink link => rfl
  | newLink link stack reply =>
    simp only [handle, newNetInterface, heard]
    split
    · cases reply <;> rfl
    · rfl

theorem deviceOf_index {attrs : Nl80211Attrs} {d : WirelessDevice} (h : deviceOf attrs = some d) :
    attrs.ifindex.map intOf = some d.index ∧ d.machwsim = d.macaddr := by
  unfold deviceOf at h
  split at h
  · cases h
  · split at h
    · cases h
    · rename_i hindex
      split at h
      · cases h
      · split at h
        · cases h
        · cases h
          rw [hindex]
          exact ⟨rfl, rfl⟩

theorem added_matches {r : Report} {d : WirelessDevice} (h : added r = some d) :
    (Heard.reported r).index = some d.index ∧ d.Matches r := by
  obtain ⟨d₀, hdevice, hmap⟩ := Option.bind_eq_some_iff.mp h
  obtain ⟨paddr, _, rfl⟩ := Option.map_eq_some_iff.mp hmap
  obtain ⟨hindex, hmac⟩ := deviceOf_index hdevice
  refine ⟨hindex, hdevice.trans (congrArg some ?_)⟩
  cases d₀
  cases hmac
  rfl

/-! ## One event -/

section Step

variable {history : List Heard} {s s' : Interfaces}

/-- The list decides; what was deleted is a consequence of what was reported. -/
theorem current_of_reported
    (h : ∀ i d, s.listWinterfaces.find? i = some d →
      ∃ r, Heard.latest history i = some (.reported r) ∧ d.Matches r) : Current history s where
  reported := h
  deleted := by
    intro i link hlatest
    cases hfind : s.listWinterfaces.find? i with
    | none => rfl
    | some d =>
      obtain ⟨r, hr, _⟩ := h i d hfind
      rw [hlatest] at hr
      cases hr

theorem current_deleted_iff (h : Current history s) (link : Link)
    (hlist : s'.listWinterfaces = (s.delNetInterface link).listWinterfaces) :
    Current (history ++ [.deleted link]) s' ↔
      (s.listWinterfaces.find? (intOf link.ifiIndex) ≠ none → removes link = true) := by
  rw [delNetInterface_list] at hlist
  have hindex : (Heard.deleted link).index = some (intOf link.ifiIndex) := rfl
  have hself : Heard.latest (history ++ [.deleted link]) (intOf link.ifiIndex) =
      some (.deleted link) := by
    rw [Heard.latest_append, if_pos hindex]
  constructor
  · intro h' hsome
    by_contra hremoves
    rw [if_neg hremoves] at hlist
    have hnone := h'.deleted _ _ hself
    rw [hlist] at hnone
    exact hsome hnone
  · intro hremoves
    apply current_of_reported
    intro i d hfind
    by_cases hi : i = intOf link.ifiIndex
    · subst hi
      rw [hlist] at hfind
      split at hfind
      · rw [SortedMap.find?_erase_self] at hfind
        cases hfind
      · rename_i hkept
        exact absurd (hremoves (by rw [hfind]; exact Option.some_ne_none d)) hkept
    · have hother : Heard.latest (history ++ [.deleted link]) i = Heard.latest history i := by
        rw [Heard.latest_append, if_neg]
        exact fun heq => hi (Option.some.inj heq).symm
      rw [hother]
      apply h.reported
      rw [hlist] at hfind
      split at hfind
      · rwa [SortedMap.find?_erase_of_ne _ hi] at hfind
      · exact hfind

theorem current_reported_iff (h : Current history s) (r : Report)
    (hlist : s'.listWinterfaces = (s.recvWinterfaceInfos r).listWinterfaces) :
    Current (history ++ [.reported r]) s' ↔
      ∀ i d, (Heard.reported r).index = some i → s.listWinterfaces.find? i = some d →
        added r ≠ none ∨ d.Matches r := by
  rw [recvWinterfaceInfos_list] at hlist
  constructor
  · intro h' i d hindex hfind
    cases hadded : added r with
    | some d' => exact Or.inl (Option.some_ne_none d')
    | none =>
      simp only [hadded] at hlist
      rw [← hlist] at hfind
      obtain ⟨r', hlatest, hmatches⟩ := h'.reported i d hfind
      rw [Heard.latest_append, if_pos hindex] at hlatest
      cases hlatest
      exact Or.inr hmatches
  · intro hrecognised
    apply current_of_reported
    intro i d hfind
    by_cases hi : (Heard.reported r).index = some i
    · refine ⟨r, by rw [Heard.latest_append, if_pos hi], ?_⟩
      cases hadded : added r with
      | none =>
        simp only [hadded] at hlist
        rw [hlist] at hfind
        exact (hrecognised i d hi hfind).resolve_left (not_not.mpr hadded)
      | some d' =>
        simp only [hadded] at hlist
        obtain ⟨hindex, hmatches⟩ := added_matches hadded
        have heq : d'.index = i := Option.some.inj (hindex.symm.trans hi)
        rw [hlist, heq, SortedMap.find?_insert_self] at hfind
        cases hfind
        exact hmatches
    · rw [Heard.latest_append, if_neg hi]
      apply h.reported
      cases hadded : added r with
      | none =>
        simp only [hadded] at hlist
        rwa [hlist] at hfind
      | some d' =>
        simp only [hadded] at hlist
        have hne : i ≠ d'.index := fun heq => hi (heq ▸ (added_matches hadded).1)
        rwa [hlist, SortedMap.find?_insert_of_ne _ hne] at hfind

/-- An event keeps the list up to date exactly when it is recognised. -/
theorem handle_current_iff (h : Current history s) (e : Event) :
    Current (history ++ (heard e).toList) (s.handle e) ↔ s.Recognises e := by
  have hlist := handle_list s e
  unfold Recognises
  cases hheard : heard e with
  | none =>
    simp only [hheard] at hlist
    refine iff_of_true ?_ trivial
    apply current_of_reported
    rw [Option.toList_none, List.append_nil, hlist]
    exact h.reported
  | some heard =>
    simp only [hheard] at hlist
    cases heard with
    | deleted link => exact current_deleted_iff h link hlist
    | reported r => exact current_reported_iff h r hlist

end Step

/-! ## Runs -/

theorem init_current : Current [] Interfaces.init := by
  apply current_of_reported
  intro i d hfind
  cases hfind

/-- In a run the list is up to date in every state exactly when every event about
an interface that is on it is recognised. -/
theorem devices_current_iff (events : List Event) :
    Lts.States stepHeard (fun p => Current p.2 p.1) (Interfaces.init, []) events ↔
      Lts.Steps stepHeard (fun p e => p.1.Recognises e) (Interfaces.init, []) events := by
  apply Lts.states_iff_steps events (I := fun _ => True)
  · exact fun _ _ _ _ _ => trivial
  · rintro ⟨s, history⟩ e p _ h heq
    cases heq
    exact handle_current_iff h e
  · trivial
  · exact init_current

/-- A report of the interface 3 with the name `name`. -/
def report3 (name : CString) : Report where
  attrs := ⟨some name, some 3, some ⟨[2, 0, 0, 0, 0, 0], rfl⟩, some 2, some 2000⟩
  permAddr := some [66, 0, 0, 0, 0, 0]

/-- An interface that is renamed to `ap0` and then deleted stays on the list. -/
theorem devices_current_fails :
    ¬ Lts.States stepHeard (fun p => Current p.2 p.1) (Interfaces.init, [])
      [.report (report3 ⟨[119, 108, 97, 110, 48], by decide⟩),
        .newLink ⟨3, 1, some ⟨[97, 112, 48], by decide⟩, some ⟨[2, 0, 0, 0, 0, 0], rfl⟩⟩
          ⟨[0, 0, 0, 0, 0, 0], rfl⟩ none,
        .delLink ⟨3, 1, some ⟨[97, 112, 48], by decide⟩, some ⟨[2, 0, 0, 0, 0, 0], rfl⟩⟩] := by
  intro h
  have hlast := h.2 _ rfl |>.2 _ rfl |>.2 _ rfl
  have hnone := hlast.deleted 3 _ rfl
  revert hnone
  decide +kernel

end Interfaces

end Vwifi
