import Vwifi.Step

/-!
# The identity of a guest

Over TCP a guest is known by `hash_ipaddr` of its address alone. The hash adds
three of the four octets with the same weight, so it separates two addresses
only by their first octet and by the sum of the others. Guests it separates
never touch each other's records.
-/

namespace Vwifi

set_option autoImplicit false

/-! ## The hash -/

namespace SockaddrIn

/-- The octet `shift` bits above the lowest one; the first octet of the address
is that of shift 0. -/
def octet (addr : SockaddrIn) (shift : UInt32) : Nat := ((addr.sAddr >>> shift) &&& 0xff).toNat

/-- What the hash keeps of the second, the third and the fourth octet. -/
def octetSum (addr : SockaddrIn) : Nat := addr.octet 8 + addr.octet 16 + addr.octet 24

theorem octet_lt (addr : SockaddrIn) (shift : UInt32) : addr.octet shift < 256 := by
  rw [octet, UInt32.toNat_and]
  exact Nat.lt_succ_of_le Nat.and_le_right

theorem weight (addr : SockaddrIn) (shift : UInt32) :
    (((addr.sAddr >>> shift) &&& 0xff) * 256).toNat = 256 * addr.octet shift := by
  have hlt := addr.octet_lt shift
  rw [UInt32.toNat_mul, Nat.mul_comm]
  apply Nat.mod_eq_of_lt
  calc UInt32.toNat 256 * addr.octet shift ≤ 256 * 255 := Nat.mul_le_mul_left _ (by omega)
    _ < 2 ^ 32 := by decide

end SockaddrIn

theorem hashIpaddr_eq (addr : SockaddrIn) :
    hashIpaddr false addr = addr.octet 0 + 256 * addr.octetSum := by
  have hzero : (addr.sAddr &&& 0xff).toNat = addr.octet 0 := by
    rw [SockaddrIn.octet, UInt32.shiftRight_zero]
  simp only [hashIpaddr, Bool.false_eq_true, if_false, addr.weight, hzero, SockaddrIn.octetSum]
  omega

/-- The CID of a guest that connects over TCP, when the port is not hashed. -/
def hashCid (addr : SockaddrIn) : TCID := UInt32.ofNat (hashIpaddr false addr)

theorem toNat_hashCid (addr : SockaddrIn) :
    (hashCid addr).toNat = addr.octet 0 + 256 * addr.octetSum := by
  have h0 := addr.octet_lt 0
  have h8 := addr.octet_lt 8
  have h16 := addr.octet_lt 16
  have h24 := addr.octet_lt 24
  have hlt : addr.octet 0 + 256 * addr.octetSum < 2 ^ 32 := by
    rw [SockaddrIn.octetSum]
    omega
  rw [hashCid, hashIpaddr_eq, UInt32.toNat_ofNat']
  exact Nat.mod_eq_of_lt hlt

theorem hashCid_eq_iff (a b : SockaddrIn) :
    hashCid a = hashCid b ↔ a.octet 0 = b.octet 0 ∧ a.octetSum = b.octetSum := by
  have ha := a.octet_lt 0
  have hb := b.octet_lt 0
  rw [← UInt32.toNat_inj, toNat_hashCid, toNat_hashCid]
  constructor
  · intro h
    constructor <;> omega
  · rintro ⟨h, hsum⟩
    rw [h, hsum]

/-! ## Records of another CID -/

section Filters

variable {α : Type} {p : α → Bool}

theorem filter_modify {f : α → α} (l : List α) (i : Nat)
    (h : ∀ x, l[i]? = some x → p x = false ∧ p (f x) = false) :
    (l.modify i f).filter p = l.filter p := by
  induction l generalizing i with
  | nil => simp
  | cons a l ih =>
    cases i with
    | zero =>
      obtain ⟨ha, hfa⟩ := h a rfl
      rw [List.modify_zero_cons, List.filter_cons, List.filter_cons, ha, hfa]
      rfl
    | succ i =>
      have htail := ih i h
      rw [List.modify_succ_cons, List.filter_cons, List.filter_cons, htail]

theorem filter_eraseP {q : α → Bool} (l : List α) (h : ∀ x, q x = true → p x = false) :
    (l.eraseP q).filter p = l.filter p := by
  induction l with
  | nil => rfl
  | cons a l ih =>
    by_cases ha : q a
    · rw [List.eraseP_cons_of_pos ha, List.filter_cons, h a ha]
      rfl
    · rw [List.eraseP_cons_of_neg ha, List.filter_cons, List.filter_cons, ih]

end Filters

section Others

variable {own other : TCID}

theorem displace_others (hne : own ≠ other) (es : List Entry) :
    (displace own es).filter (·.cid = other) = es.filter (·.cid = other) := by
  cases hfind : es.find? (Entry.isLive own) with
  | none => rw [displace_of_find?_none hfind]
  | some e =>
    obtain ⟨before, after, hes, hdis, hlive, _⟩ := displace_split hfind
    have hcid : e.cid = own := (Entry.isLive_iff.mp hlive).2
    have hout : decide (e.cid = other) = false := by
      rw [hcid]
      exact decide_eq_false hne
    have hout' : decide (e.disable.cid = other) = false := hout
    rw [hdis, hes, List.filter_append, List.filter_append, List.filter_cons, List.filter_cons,
      hout, hout']
    rfl

theorem modify_entries_others (hne : own ≠ other) {es : List Entry} {i : Nat}
    {f : CInfoWifi → CInfoWifi} (hf : ∀ w, (f w).cid = w.cid)
    (h : es.findIdx? (·.cid = own) = some i) :
    (es.modify i (Entry.amend f)).filter (·.cid = other) = es.filter (·.cid = other) := by
  apply filter_modify
  intro e he
  have hcid : e.cid = own := by
    have hspec := List.findIdx?_eq_some_iff_getElem.mp h
    obtain ⟨hi, hown, _⟩ := hspec
    rw [List.getElem?_eq_getElem hi, Option.some.injEq] at he
    rw [← he]
    simpa using hown
  have hcid' : (e.amend f).cid = own := (hf e.info).trans hcid
  rw [hcid, hcid']
  exact ⟨decide_eq_false hne, decide_eq_false hne⟩

theorem modify_stored_others (hne : own ≠ other) {ws : List CInfoWifi} {i : Nat}
    {f : CInfoWifi → CInfoWifi} (hf : ∀ w, (f w).cid = w.cid)
    (h : ws.findIdx? (·.cid = own) = some i) :
    (ws.modify i f).filter (·.cid = other) = ws.filter (·.cid = other) := by
  apply filter_modify
  intro w hw
  have hcid : w.cid = own := by
    obtain ⟨hi, hown, _⟩ := List.findIdx?_eq_some_iff_getElem.mp h
    rw [List.getElem?_eq_getElem hi, Option.some.injEq] at hw
    rw [← hw]
    simpa using hown
  have hcid' : (f w).cid = own := (hf w).trans hcid
  rw [hcid, hcid']
  exact ⟨decide_eq_false hne, decide_eq_false hne⟩

end Others

namespace Registry

variable {r r' : Registry} {own other : TCID}

/-- The record a new connection of `own` starts with is one of `own`, or blank. -/
inductive Source (es : List Entry) (stored : List CInfoWifi) (own : TCID) (w : CInfoWifi) :
    Prop where
  | stored (hmem : w ∈ stored) (hcid : w.cid = own)
  | connected {e : Entry} (hmem : e ∈ es) (hlive : e.isLive own = true) (hinfo : w = e.info)
  | fresh (hdefault : CInfoWifi.default.setCid own = some w)

theorem connect_others {d : TDescriptor} (hne : own ≠ other) (h : r.connect d own = some r') :
    r'.stored.filter (·.cid = other) = r.stored.filter (·.cid = other) ∧
      ∃ es w, r'.entries = es ++ [⟨⟨d, true⟩, w⟩] ∧ w.cid = own ∧ Source r.entries r.stored own w ∧
        es.filter (·.cid = other) = r.entries.filter (·.cid = other) := by
  unfold connect at h
  split at h
  · rename_i w hstored
    cases h
    have hw : w.cid = own := by simpa using List.find?_some hstored
    refine ⟨?_, r.entries, w, rfl, hw, Source.stored (List.mem_of_find?_eq_some hstored) hw, rfl⟩
    apply filter_eraseP
    intro w' hw'
    rw [decide_eq_true_eq] at hw'
    rw [hw']
    exact decide_eq_false hne
  · split at h
    · rename_i e hlive
      cases h
      exact ⟨rfl, _, e.info, rfl, (Entry.isLive_iff.mp (List.find?_some hlive)).2,
        Source.connected (List.mem_of_find?_eq_some hlive) (List.find?_some hlive) rfl,
        displace_others hne _⟩
    · obtain ⟨w, hw, rfl⟩ := Option.map_eq_some_iff.mp h
      exact ⟨rfl, _, w, rfl, CInfoWifi.setCid_cid hw, Source.fresh hw, rfl⟩

/-- What an order addressed to `own` can do to a registry. -/
inductive Addressed (r : Registry) (own : TCID) : Registry → Prop where
  | same : Addressed r own r
  | coordinate (w : CInfoWifi) (hcid : w.cid = own) : Addressed r own (r.storeCoordinate w)
  | name (name : CString) {r' : Registry} (h : r.storeName own name = some r') :
      Addressed r own r'

theorem Addressed.others (hne : own ≠ other) (h : r.Addressed own r') :
    r'.entries.filter (·.cid = other) = r.entries.filter (·.cid = other) ∧
      r'.stored.filter (·.cid = other) <:+ r.stored.filter (·.cid = other) := by
  cases h with
  | same => exact ⟨rfl, List.suffix_rfl⟩
  | coordinate w hcid =>
    subst hcid
    unfold storeCoordinate
    cases hentry : r.entries.findIdx? (·.cid = w.cid) with
    | some i => exact ⟨modify_entries_others hne (fun _ => rfl) hentry, List.suffix_rfl⟩
    | none =>
      cases hstored : r.stored.findIdx? (·.cid = w.cid) with
      | some i =>
        refine ⟨rfl, ?_⟩
        have heq := modify_stored_others (f := (·.set w.toCCoordinate)) hne (fun _ => rfl) hstored
        exact heq ▸ List.suffix_rfl
      | none =>
        refine ⟨rfl, ?_⟩
        obtain ⟨dropped, kept, heq, hpush⟩ := Bounded.push_eq_append r.capacity r.stored w
        have hout : [w].filter (·.cid = other) = [] := by
          rw [List.filter_singleton, decide_eq_false hne]
          rfl
        have hremember : (r.remember w).stored = kept ++ [w] := hpush
        rw [hremember, heq, List.filter_append, List.filter_append, hout, List.append_nil]
        exact List.suffix_append _ _
  | name name h =>
    unfold storeName at h
    split at h
    · rename_i i hentry
      cases h
      exact ⟨modify_entries_others hne (fun w => CInfoWifi.setName_cid w name) hentry,
        List.suffix_rfl⟩
    · obtain ⟨i, hstored, rfl⟩ := Option.map_eq_some_iff.mp h
      refine ⟨rfl, ?_⟩
      have heq := modify_stored_others (f := (·.setName name)) hne
        (fun w => CInfoWifi.setName_cid w name) hstored
      exact heq ▸ List.suffix_rfl

end Registry

namespace Server

variable {d : TDescriptor} {s s' : Server} {v : Bool → Registry}

/-- The CID an order is addressed to, as its handler reads it on the connection `c`. -/
def addressee (s : Server) (stack : Stack) (c : Incoming) : Option TCID :=
  match (s.acceptCtrlClient c).getOrder stack c.descriptor with
  | (order, s) =>
    if order = .torderChangeCoordinate ∨ order = .torderSetName then
      (s.read c.descriptor (.uninitialised stack .cid 4)).1.map Var.toCID
    else none

theorem receiveOrder_addressed {medium : Medium} {stack : Stack} {c : Incoming} {own : TCID}
    (h : s.receiveOrder medium stack c = some s') (hv : s.Views v) (hctrl : s.ctrlSockets = [])
    (haddressee : s.addressee stack c = some own) :
    ∃ r, s'.wifiServer = r.server ∧ (v false).Addressed own r := by
  obtain ⟨order, s₁, s₂, horder, hserve, rfl⟩ := receiveOrder_serve h hv hctrl
  have hv₀ : (s.acceptCtrlClient c).Views v := hv
  have hv₁ := (getOrder_talks horder).views hv₀
  simp only [addressee, horder] at haddressee
  split at haddressee
  · rename_i hor
    obtain ⟨cid, hcid, hown⟩ := Option.map_eq_some_iff.mp haddressee
    have hsame : ∀ t t' : Server, Talks c.descriptor s₁ t → t'.wifiServer = t.wifiServer →
        ∃ r, t'.wifiServer = r.server ∧ (v false).Addressed own r := fun t t' htalk heq =>
      ⟨v false, heq.trans (htalk.views hv₁ false), Registry.Addressed.same⟩
    rcases hor with rfl | rfl
    · rcases changeCoordinate_cases hserve with htalk | ⟨cid', coo, s₃, hread, h₃, hmin, hstore⟩
      · exact hsame _ _ htalk rfl
      · rw [hcid, Option.some.injEq] at hread
        subst hread
        obtain ⟨w, hw, hwcid, hcoo, _⟩ := ofCoordinate_eq hmin coo
        rw [storeCoordinate_eq (h₃.views hv₁) hw hwcid hcoo] at hstore
        cases hstore
        exact ⟨_, rfl, Registry.Addressed.coordinate w (hwcid.trans hown)⟩
    · rcases setName_cases hserve with htalk | ⟨cid', name, s₃, hread, h₃, _, hstore⟩
      · exact hsame _ _ htalk rfl
      · rw [hcid, Option.some.injEq] at hread
        subst hread hstore
        rw [storeName_eq (h₃.views hv₁), hown]
        refine ⟨_, rfl, ?_⟩
        rw [renamed_false]
        cases hname : (v false).storeName own name with
        | none => exact Registry.Addressed.same
        | some r => exact Registry.Addressed.name name hname
  · cases haddressee

end Server

/-! ## Two guests -/

namespace CWifiServer

/-- An `Accept` for `own` neither disables nor changes a record of `other`, and
takes over none. -/
structure AcceptApart (own other : TCID) (s s' : CWifiServer) : Prop where
  connections : s'.connectionsOf other = s.connectionsOf other
  stored : s'.storedOf other = s.storedOf other
  source : ∃ w, s'.infoWifis.getLast? = some w ∧ w.cid = own ∧
    Registry.Source s.entries s.infoWifisDeconnected own w

/-- An order leaves the records of `other` as they are; a new record of another
CID may push the oldest disconnected ones out. -/
structure OrderApart (other : TCID) (s s' : CWifiServer) : Prop where
  connections : s'.connectionsOf other = s.connectionsOf other
  stored : s'.storedOf other <:+ s.storedOf other

end CWifiServer

namespace Config

/-- In the configuration `c` neither an `Accept` nor an order for `a` touches `b`. -/
structure Apart (medium : Medium) (a b : SockaddrIn) (c : Config) : Prop where
  accept : ∀ inc c', c.phase = .acceptITCP → step medium c (.connectIn inc a) = some c' →
    CWifiServer.AcceptApart (hashCid a) (hashCid b) c.server.wifiServer c'.server.wifiServer
  order : ∀ inc stack c', step medium c (.order inc stack) = some c' →
    c.server.addressee stack inc = some (hashCid a) →
      CWifiServer.OrderApart (hashCid b) c.server.wifiServer c'.server.wifiServer

/-- The CIDs of `a` and `b` differ, and in no run does `a` touch `b`. -/
def Separate (a b : SockaddrIn) : Prop :=
  hashCid a ≠ hashCid b ∧ ∀ (medium : Medium) (setup : Setup) (ls : List Label) (c : Config),
    setup.hashUsesPort = false → Lts.run (step medium) (init setup) ls = some c →
      Apart medium a b c

variable {medium : Medium} {c c' : Config} {l : Label} {v : Bool → Registry} {a b : SockaddrIn}

theorem step_accept (h : step medium c l = some c') {inc : Incoming} {addr : SockaddrIn}
    (hphase : c.phase = .acceptITCP) (hl : l = .connectIn inc addr) :
    c.server.acceptClient inc (c.server.cidOf addr) = some c'.server := by
  subst hl
  simp only [step, hphase] at h
  split at h
  · obtain ⟨s', hs', hnext⟩ := Option.bind_eq_some_iff.mp h
    cases hnext
    exact hs'
  · cases h

theorem step_order (h : step medium c l = some c') {inc : Incoming} {stack : Stack}
    (hl : l = .order inc stack) :
    c.phase = .order ∧ c.server.receiveOrder medium stack inc = some c'.server := by
  subst hl
  cases hphase : c.phase with
  | order => ?_
  | _ => simp [step, hphase] at h
  simp only [step, hphase] at h
  split at h
  · obtain ⟨s', hs', hnext⟩ := Option.bind_eq_some_iff.mp h
    cases hnext
    exact ⟨rfl, hs'⟩
  · cases h

theorem apart_of_ne (hv : c.Sees v) (hport : c.server.hashUsesPort = false)
    (hne : hashCid a ≠ hashCid b) : Apart medium a b c where
  accept := by
    intro inc c' hphase h
    have haccept := step_accept h hphase rfl
    have hcid : c.server.cidOf a = hashCid a := by
      rw [Server.cidOf, hport]
      rfl
    rw [hcid] at haccept
    obtain ⟨r, hconnect, hs'⟩ := Server.acceptClient_eq hv.views haccept
    obtain ⟨hstored, es, w, hentries, hw, hsource, hothers⟩ :=
      Registry.connect_others hne hconnect
    have hwifi : c.server.wifiServer = (v false).server := hv.views false
    have hwifi' : c'.server.wifiServer = r.server := by
      rw [hs']
      rfl
    have hout : [(⟨⟨inc.descriptor, true⟩, w⟩ : Entry)].filter (·.cid = hashCid b) = [] := by
      rw [List.filter_singleton]
      have hcidw : (⟨⟨inc.descriptor, true⟩, w⟩ : Entry).cid = hashCid a := hw
      rw [hcidw, decide_eq_false hne]
      rfl
    rw [hwifi, hwifi']
    refine ⟨?_, ?_, w, ?_, hw, ?_⟩
    · rw [CWifiServer.connectionsOf, CWifiServer.connectionsOf, Registry.server_entries,
        Registry.server_entries, hentries, List.filter_append, hout, List.append_nil, hothers]
    · exact hstored
    · have hinfos : r.server.infoWifis = r.entries.map Entry.info := rfl
      rw [hentries, List.map_append, List.map_singleton] at hinfos
      rw [hinfos, List.getLast?_concat]
    · rw [Registry.server_entries]
      exact hsource
  order := by
    intro inc stack c' h haddressee
    obtain ⟨_, hreceive⟩ := step_order h rfl
    obtain ⟨r, hwifi', haddressed⟩ :=
      Server.receiveOrder_addressed hreceive hv.views hv.ctrlSockets haddressee
    have hwifi : c.server.wifiServer = (v false).server := hv.views false
    obtain ⟨hentries, hstored⟩ := haddressed.others hne
    rw [hwifi, hwifi']
    refine ⟨?_, hstored⟩
    rw [CWifiServer.connectionsOf, CWifiServer.connectionsOf, Registry.server_entries,
      Registry.server_entries, hentries]

/-- Two addresses stay apart exactly when they differ in the first octet or in
the sum of the other three. -/
theorem separate_iff (a b : SockaddrIn) :
    Separate a b ↔ a.octet 0 ≠ b.octet 0 ∨ a.octetSum ≠ b.octetSum := by
  rw [← not_and_or, ← hashCid_eq_iff]
  constructor
  · rintro ⟨hne, _⟩
    exact hne
  · intro hne
    refine ⟨hne, ?_⟩
    intro medium setup ls c hport hrun
    have hinv := Lts.run_invariant (I := fun c => c.server.hashUsesPort = false ∧ ∃ v, c.Sees v)
      ?_ ⟨hport, initialView, init_sees setup⟩ hrun
    · obtain ⟨hport', v, hv⟩ := hinv
      exact apart_of_ne hv hport' hne
    · rintro t l t' ⟨hport', v, hv⟩ h
      obtain ⟨v', hv', hcases⟩ := step_cases hv h
      have hfixed := congrArg Prod.fst hcases.fixed
      exact ⟨hfixed.trans hport', v', hv'⟩

/-- 172.16.0.3 and 172.16.1.2 have one CID: the second guest throws the first out. -/
theorem separate_fails :
    ¬ Separate ⟨0x030010AC, 0⟩ ⟨0x020110AC, 0⟩ ∧
      (Lts.run (step Medium.uniform) (init Setup.tcp)
        (Label.joins ⟨10, [], []⟩ ⟨0x030010AC, 0⟩ 3 ++
          Label.joins ⟨11, [], []⟩ ⟨0x020110AC, 0⟩ 4)).map
        (fun c => c.server.wifiServer.entries.map Entry.descriptor) = some [11] := by
  constructor
  · rintro ⟨hne, _⟩
    exact hne ((hashCid_eq_iff _ _).mpr (by decide))
  · decide +kernel

end Config

end Vwifi
