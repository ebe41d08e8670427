import Vwifi.Lib.First
import Vwifi.Request

/-!
# A name and coordinates for one guest

`SetName` and `ChangeCoordinate` look for a CID in the same lists and change the first
record they find, so they can be exchanged as long as there is one. A CID that is not
found is given a record by `ChangeCoordinate` only. `Accept` does not look where the
orders do: it passes over the entries that are disabled.
-/

namespace Vwifi

set_option autoImplicit false

namespace CInfoWifi

/-- The record has that name, as far as there is room for it, and those coordinates. -/
def Has (w : CInfoWifi) (name : CString) (coo : CCoordinate) : Prop :=
  w.name = name.resize maxSizeName ∧ w.toCCoordinate = coo

theorem setName_set (w : CInfoWifi) (name : CString) (coo : CCoordinate) :
    (w.set coo).setName name = (w.setName name).set coo := by
  unfold setName
  split
  · rfl
  · rfl

theorem setName_set_cid (w : CInfoWifi) (name : CString) (coo : CCoordinate) :
    ((w.setName name).set coo).cid = w.cid := by
  rw [set_cid, setName_cid]

theorem has_setName_set (w : CInfoWifi) (name : CString) (coo : CCoordinate) :
    ((w.setName name).set coo).Has name coo :=
  ⟨w.name_setName name, rfl⟩

/-- Only the name that is there already changes nothing. -/
theorem setName_eq_self_iff {w : CInfoWifi} {name : CString} :
    w.setName name = w ↔ w.name = name.resize maxSizeName := by
  constructor
  · intro h
    rw [← w.name_setName name, h]
  · intro h
    rw [← w.setName_resize, ← h, setName, dif_pos w.nameOk]

end CInfoWifi

theorem CString.resize_eq_empty_iff {name : CString} :
    name.resize maxSizeName = CString.empty ↔ name = CString.empty := by
  constructor
  · intro h
    apply CString.ext_bytes
    have htake : name.bytes.take maxSizeName = [] := congrArg CString.bytes h
    rcases List.take_eq_nil_iff.mp htake with hzero | hnil
    · cases hzero
    · exact hnil
  · rintro rfl
    rfl

namespace Registry

variable {r r' : Registry} {cid : TCID} {f g : CInfoWifi → CInfoWifi} {w : CInfoWifi}

/-- The first record of the CID is changed: that of an entry, or else a disconnected one. -/
def amend (r : Registry) (cid : TCID) (f : CInfoWifi → CInfoWifi) : Option Registry :=
  match r.entries.findIdx? (·.cid = cid) with
  | some i => some (r.amendEntry i f)
  | none => (r.stored.findIdx? (·.cid = cid)).map fun i => r.amendStored i f

theorem storeName_eq_amend (r : Registry) (cid : TCID) (name : CString) :
    r.storeName cid name = r.amend cid (·.setName name) := rfl

theorem storeCoordinate_eq_amend (r : Registry) (w : CInfoWifi) :
    r.storeCoordinate w = (r.amend w.cid (·.set w.toCCoordinate)).getD (r.remember w) := by
  unfold storeCoordinate amend
  cases r.entries.findIdx? (·.cid = w.cid) with
  | some i => rfl
  | none =>
    cases r.stored.findIdx? (·.cid = w.cid) with
    | some i => rfl
    | none => rfl

theorem amend_isSome (r : Registry) (cid : TCID) (f : CInfoWifi → CInfoWifi) :
    (r.amend cid f).isSome = r.knows cid := by
  rw [knows, ← List.findIdx?_isSome, ← List.findIdx?_isSome, amend]
  split
  · rename_i i hentry
    rw [hentry]
    rfl
  · rename_i hentry
    rw [hentry, Option.isSome_map]
    rfl

theorem amend_amend (hf : ∀ w, (f w).cid = w.cid) (h : r.amend cid f = some r') :
    r'.amend cid g = r.amend cid fun w => g (f w) := by
  have hentries : ∀ e : Entry, decide ((e.amend f).cid = cid) = decide (e.cid = cid) := by
    intro e
    exact congrArg (fun c => decide (c = cid)) (hf e.info)
  have hstored : ∀ w : CInfoWifi, decide ((f w).cid = cid) = decide (w.cid = cid) := by
    intro w
    rw [hf]
  unfold amend at h ⊢
  split at h
  · rename_i i hfind
    cases h
    have hfind' := @First.findIdx?_modify _ (fun e : Entry => decide (e.cid = cid)) (Entry.amend f)
      hentries r.entries i
    simp only [amendEntry, hfind', hfind, List.modify_modify_eq]
    rfl
  · rename_i hnone
    obtain ⟨i, hfind, rfl⟩ := Option.map_eq_some_iff.mp h
    have hfind' := @First.findIdx?_modify _ (fun w : CInfoWifi => decide (w.cid = cid)) f
      hstored r.stored i
    simp only [amendStored, hnone, hfind', hfind, Option.map_some, List.modify_modify_eq]
    rfl

theorem amend_entry {i : Nat} (h : r.entries.findIdx? (·.cid = cid) = some i) :
    r.amend cid f = some (r.amendEntry i f) := by
  rw [amend, h]

/-- The records that stay when another one is remembered. -/
def kept (r : Registry) : List CInfoWifi :=
  if r.capacity ≤ r.stored.length then r.stored.tail else r.stored

theorem remember_stored (r : Registry) (w : CInfoWifi) :
    (r.remember w).stored = r.kept ++ [w] := rfl

theorem unknown_entries (h : r.knows cid = false) : r.entries.findIdx? (·.cid = cid) = none := by
  rw [knows, Bool.or_eq_false_iff, List.any_eq_false] at h
  rw [List.findIdx?_eq_none_iff]
  exact fun e he => Bool.eq_false_iff.mpr (h.1 e he)

theorem unknown_kept (h : r.knows cid = false) : ∀ w ∈ r.kept, decide (w.cid = cid) = false := by
  rw [knows, Bool.or_eq_false_iff, List.any_eq_false, List.any_eq_false] at h
  intro w hw
  apply Bool.eq_false_iff.mpr
  apply h.2 w
  unfold kept at hw
  split at hw
  · exact List.mem_of_mem_tail hw
  · exact hw

/-- A record that is remembered because there was none is the one that is found next. -/
theorem amend_remember (hw : w.cid = cid) (hunknown : r.knows cid = false) :
    (r.remember w).amend cid f = some (r.remember (f w)) := by
  have hfind := @First.findIdx?_append_singleton _ (fun w : CInfoWifi => decide (w.cid = cid)) _ w
    (unknown_kept hunknown) (decide_eq_true hw)
  have hentries : (r.remember w).entries.findIdx? (·.cid = cid) = none :=
    @unknown_entries r cid hunknown
  rw [amend, hentries, remember_stored, hfind, Option.map_some, amendStored, remember_stored,
    First.modify_append_cons]
  rfl

/-! ## The record that a guest uses -/

/-- What `Accept` finds for a CID without an enabled entry. -/
def given (r : Registry) (cid : TCID) : Option CInfoWifi :=
  match r.stored.find? (·.cid = cid) with
  | some w => some w
  | none => CInfoWifi.default.setCid cid

/-- A connected guest uses the record of its enabled entry, any other one that with which
it is accepted next. -/
inductive Uses (r : Registry) (cid : TCID) (w : CInfoWifi) : Prop where
  | connected (e : Entry) (mem : e ∈ r.entries) (live : e.isLive cid = true) (info : e.info = w)
  | next (absent : r.entries.find? (Entry.isLive cid) = none) (d : TDescriptor) (r' : Registry)
      (accepted : r.connect d cid = some r') (last : r'.entries.getLast? = some ⟨⟨d, true⟩, w⟩)

theorem uses_iff : r.Uses cid w ↔ (∃ e ∈ r.entries, e.isLive cid = true ∧ e.info = w) ∨
    r.entries.find? (Entry.isLive cid) = none ∧ r.given cid = some w := by
  have hlast : ∀ (q : Registry) (d : TDescriptor) (w : CInfoWifi),
      (q.add d w).entries.getLast? = some ⟨⟨d, true⟩, w⟩ := by
    intro q d w
    rw [add, List.getLast?_concat]
  constructor
  · intro h
    cases h with
    | connected e mem live info => exact .inl ⟨e, mem, live, info⟩
    | next absent d r' accepted last =>
      refine .inr ⟨absent, ?_⟩
      unfold connect at accepted
      rw [absent] at accepted
      split at accepted
      · rename_i v hfind
        cases accepted
        rw [hlast] at last
        rw [given, hfind]
        cases last
        rfl
      · rename_i hfind
        obtain ⟨v, hset, rfl⟩ := Option.map_eq_some_iff.mp accepted
        rw [hlast] at last
        rw [given, hfind]
        cases last
        exact hset
  · rintro (⟨e, mem, live, info⟩ | ⟨absent, hgiven⟩)
    · exact .connected e mem live info
    · unfold given at hgiven
      split at hgiven
      · rename_i v hfind
        cases hgiven
        exact .next absent 0 _ (by rw [connect, hfind]) (hlast _ 0 _)
      · rename_i hfind
        exact .next absent 0 _ (by rw [connect, hfind, absent, hgiven]; rfl) (hlast _ 0 _)

section Changed

variable {name : CString} {coo : CCoordinate}

theorem isLive_amend (hf : ∀ w, (f w).cid = w.cid) (e : Entry) :
    (e.amend f).isLive cid = e.isLive cid := by
  unfold Entry.isLive
  exact congrArg (fun c => e.enabled && decide (c = cid)) (hf e.info)

/-- When an entry has been changed, every other record that is used has to be right. -/
theorem uses_amendEntry_iff {i : Nat} (hf : ∀ w, (f w).cid = w.cid)
    (hhas : ∀ w, (f w).Has name coo) (h : r.entries.findIdx? (·.cid = cid) = some i) :
    (∀ w, (r.amendEntry i f).Uses cid w → w.Has name coo) ↔
      (∀ e ∈ r.entries.eraseIdx i, e.isLive cid = true → e.info.Has name coo) ∧
      (r.entries.find? (Entry.isLive cid) = none →
        ∀ w, r.given cid = some w → w.Has name coo) := by
  obtain ⟨hi, _⟩ := List.findIdx?_eq_some_iff_getElem.mp h
  obtain ⟨before, after, hentries, hlength⟩ :=
    split_of_getElem? (List.getElem?_eq_getElem hi)
  generalize r.entries[i] = e at hentries
  have hamended : (r.amendEntry i f).entries = before ++ e.amend f :: after := by
    rw [amendEntry, hentries, ← hlength]
    exact First.modify_append_cons before e after
  have herased : r.entries.eraseIdx i = before ++ after := by
    rw [hentries, ← hlength, List.eraseIdx_append_of_length_le (Nat.le_refl _), Nat.sub_self]
    rfl
  have habsent : (r.amendEntry i f).entries.find? (Entry.isLive cid) = none ↔
      r.entries.find? (Entry.isLive cid) = none := by
    rw [hamended, hentries, List.find?_eq_none, List.find?_eq_none]
    simp only [List.mem_append, List.mem_cons, or_imp, forall_and, forall_eq, isLive_amend hf]
  rw [herased]
  constructor
  · intro huses
    constructor
    · intro a ha hlive
      apply huses
      refine .connected a ?_ hlive rfl
      rw [hamended]
      rcases List.mem_append.mp ha with ha | ha
      · exact List.mem_append_left _ ha
      · exact List.mem_append_right _ (List.mem_cons_of_mem _ ha)
    · intro hnone w hgiven
      exact huses w (uses_iff.mpr (.inr ⟨habsent.mpr hnone, hgiven⟩))
  · rintro ⟨hothers, hnext⟩ w huses
    rcases uses_iff.mp huses with ⟨a, ha, hlive, rfl⟩ | ⟨hnone, hgiven⟩
    · rw [hamended] at ha
      rcases List.mem_append.mp ha with ha | ha
      · exact hothers a (List.mem_append_left _ ha) hlive
      · rcases List.mem_cons.mp ha with rfl | ha
        · exact hhas e.info
        · exact hothers a (List.mem_append_right _ ha) hlive
    · exact hnext (habsent.mp hnone) w hgiven

theorem given_of_uses (h : r.entries.findIdx? (·.cid = cid) = none) (huses : r.Uses cid w) :
    r.given cid = some w := by
  rcases uses_iff.mp huses with ⟨e, he, hlive, _⟩ | ⟨_, hgiven⟩
  · have hother := List.findIdx?_eq_none_iff.mp h e he
    rw [decide_eq_false_iff_not] at hother
    exact absurd (Entry.isLive_iff.mp hlive).2 hother
  · exact hgiven

theorem uses_amendStored {i : Nat} (hf : ∀ w, (f w).cid = w.cid)
    (hentries : r.entries.findIdx? (·.cid = cid) = none)
    (hstored : r.stored.findIdx? (·.cid = cid) = some i)
    (huses : (r.amendStored i f).Uses cid w) : ∃ w₀, w = f w₀ := by
  have hkeeps : ∀ w : CInfoWifi, decide ((f w).cid = cid) = decide (w.cid = cid) := by
    intro w
    rw [hf]
  have hfind := @First.find?_modify _ (fun w : CInfoWifi => decide (w.cid = cid))
    f hkeeps _ _ hstored
  have hgiven := @given_of_uses (r.amendStored i f) _ _ hentries huses
  obtain ⟨hi, hcid, _⟩ := List.findIdx?_eq_some_iff_getElem.mp hstored
  rw [given, amendStored, hfind, List.find?_eq_bind_findIdx?_getElem?, hstored, Option.bind_some,
    List.getElem?_eq_getElem hi] at hgiven
  exact ⟨_, (Option.some.inj hgiven).symm⟩

theorem uses_remember {v : CInfoWifi} (hv : v.cid = cid) (hunknown : r.knows cid = false)
    (huses : (r.remember v).Uses cid w) : w = v := by
  have hgiven := @given_of_uses (r.remember v) _ _ (@unknown_entries r cid hunknown) huses
  have hnone : r.kept.find? (fun w => decide (w.cid = cid)) = none := by
    rw [List.find?_eq_none]
    exact fun w hw => Bool.eq_false_iff.mp (unknown_kept hunknown w hw)
  rw [given, remember_stored, List.find?_append, hnone, Option.none_or, List.find?_singleton,
    if_pos (decide_eq_true hv)] at hgiven
  exact (Option.some.inj hgiven).symm

end Changed

end Registry

/-! ## Both orders -/

theorem Server.renamed_known {v : Bool → Registry} {cid : TCID} {name : CString} {r : Registry}
    (h : (v false).amend cid (·.setName name) = some r) :
    renamed v cid name = Function.update v false r := by
  rw [renamed, Registry.storeName_eq_amend, h]

namespace Held

variable {h : Held} {cid : TCID} {name : CString} {coo : CCoordinate}

def nameThenPlace (h : Held) (cid : TCID) (name : CString) (coo : CCoordinate) : Held :=
  (Request.changeCoordinate cid coo).effect ((Request.setName cid name).effect h)

def placeThenName (h : Held) (cid : TCID) (name : CString) (coo : CCoordinate) : Held :=
  (Request.setName cid name).effect ((Request.changeCoordinate cid coo).effect h)

theorem storeCoordinate_eq {w : CInfoWifi} (hw : CInfoWifi.ofCoordinate cid coo = some w)
    (hcid : w.cid = cid) (hcoo : w.toCCoordinate = coo) :
    h.storeCoordinate cid coo = { h with
      registry := Function.update h.registry false
        (((h.registry false).amend cid (·.set coo)).getD ((h.registry false).remember w)) } := by
  rw [storeCoordinate, hw]
  dsimp only
  rw [Registry.storeCoordinate_eq_amend, hcid, hcoo]

/-- A record that is found is given both, in either order. -/
theorem orders_known (hmin : ¬ cid < tcidGuestMin) {r : Registry}
    (hknown : (h.registry false).amend cid (fun w => (w.setName name).set coo) = some r) :
    h.nameThenPlace cid name coo = { h with registry := Function.update h.registry false r } ∧
      h.placeThenName cid name coo = { h with registry := Function.update h.registry false r } := by
  obtain ⟨w, hw, hcid, hcoo, _⟩ := Server.ofCoordinate_eq hmin coo
  have hknows : (h.registry false).knows cid = true := by
    rw [← Registry.amend_isSome, hknown]
    rfl
  obtain ⟨named, hnamed⟩ := Option.isSome_iff_exists.mp
    ((Registry.amend_isSome (h.registry false) cid (·.setName name)).trans hknows)
  obtain ⟨placed, hplaced⟩ := Option.isSome_iff_exists.mp
    ((Registry.amend_isSome (h.registry false) cid (·.set coo)).trans hknows)
  constructor
  · have hboth := Registry.amend_amend (g := (·.set coo)) (fun w => w.setName_cid name) hnamed
    rw [nameThenPlace, Request.effect, Request.effect, if_neg hmin, if_neg hmin, storeName,
      Server.renamed_known hnamed, storeCoordinate_eq hw hcid hcoo]
    simp only [Function.update_self, Function.update_idem, hboth, hknown, Option.getD_some]
  · have hboth := Registry.amend_amend (g := (·.setName name)) (fun w => w.set_cid coo) hplaced
    simp only [CInfoWifi.setName_set, hknown] at hboth
    have hrenamed := @Server.renamed_known (Function.update h.registry false placed) cid name r
      (by rw [Function.update_self]; exact hboth)
    rw [Function.update_idem] at hrenamed
    rw [placeThenName, Request.effect, Request.effect, if_neg hmin, if_neg hmin,
      storeCoordinate_eq hw hcid hcoo, storeName, hplaced, Option.getD_some]
    dsimp only
    rw [hrenamed]

/-- Where there is no record, the name goes to a spy or is lost when it comes first. -/
theorem orders_unknown (hmin : ¬ cid < tcidGuestMin)
    (hunknown : (h.registry false).knows cid = false) :
    ∃ w : CInfoWifi, w.cid = cid ∧ w.toCCoordinate = coo ∧ w.name = CString.empty ∧
      h.nameThenPlace cid name coo = { h with
        registry := Function.update (Server.renamed h.registry cid name) false
          ((h.registry false).remember w) } ∧
      h.placeThenName cid name coo = { h with
        registry := Function.update h.registry false
          ((h.registry false).remember (w.setName name)) } := by
  obtain ⟨w, hw, hcid, hcoo, hname⟩ := Server.ofCoordinate_eq hmin coo
  have hnone : ∀ f, (h.registry false).amend cid f = none := by
    intro f
    rw [← Option.not_isSome_iff_eq_none, Registry.amend_isSome, hunknown]
    exact Bool.false_ne_true
  have hfalse : Server.renamed h.registry cid name false = h.registry false := by
    rw [Server.renamed_false, Registry.storeName_eq_amend, hnone, Option.getD_none]
  refine ⟨w, hcid, hcoo, hname, ?_, ?_⟩
  · rw [nameThenPlace, Request.effect, Request.effect, if_neg hmin, if_neg hmin, storeName,
      storeCoordinate_eq hw hcid hcoo]
    dsimp only
    rw [hfalse, hnone, Option.getD_none]
  · have hboth := @Registry.amend_remember (h.registry false) cid (·.setName name) w hcid hunknown
    have hrenamed := @Server.renamed_known
      (Function.update h.registry false ((h.registry false).remember w)) cid name _
      (by rw [Function.update_self]; exact hboth)
    rw [Function.update_idem] at hrenamed
    rw [placeThenName, Request.effect, Request.effect, if_neg hmin, if_neg hmin,
      storeCoordinate_eq hw hcid hcoo, storeName, hnone, Option.getD_none]
    dsimp only
    rw [hrenamed]

/-- The name changes no spy: none has the CID, or the first that has it is called so. -/
theorem renamed_true_iff (hunknown : (h.registry false).knows cid = false) :
    Server.renamed h.registry cid name true = h.registry true ↔
      ∀ e, (h.registry true).entries.find? (·.cid = cid) = some e →
        e.info.name = name.resize maxSizeName := by
  have hnone : (h.registry false).storeName cid name = none := by
    rw [Registry.storeName_eq_amend, ← Option.not_isSome_iff_eq_none, Registry.amend_isSome,
      hunknown]
    exact Bool.false_ne_true
  rw [Server.renamed, hnone]
  cases hspy : (h.registry true).entries.findIdx? (·.cid = cid) with
  | none =>
    have hfind : (h.registry true).entries.find? (·.cid = cid) = none := by
      rw [List.find?_eq_bind_findIdx?_getElem?, hspy]
      rfl
    rw [hfind]
    exact iff_of_true rfl fun e he => by cases he
  | some i =>
    have hself := @First.modify_eq_self_iff _ _ (Entry.amend (·.setName name)) _ _ hspy
    have hinfo : ∀ e : Entry, e.amend (·.setName name) = e ↔
        e.info.name = name.resize maxSizeName := by
      intro e
      rw [← CInfoWifi.setName_eq_self_iff]
      constructor
      · exact congrArg Entry.info
      · intro hsame
        rw [Entry.amend, hsame]
    simp only [hinfo] at hself
    rw [← hself]
    dsimp only
    rw [Function.update_self]
    constructor
    · exact congrArg Registry.entries
    · intro hsame
      rw [Registry.amendEntry, hsame]

/-- For a CID that is not found the two orders can be exchanged only without a name. -/
theorem unknown_same_iff (hmin : ¬ cid < tcidGuestMin)
    (hunknown : (h.registry false).knows cid = false) :
    h.placeThenName cid name coo = h.nameThenPlace cid name coo ↔
      name = CString.empty ∧ ∀ e, (h.registry true).entries.find? (·.cid = cid) = some e →
        e.info.name = CString.empty := by
  obtain ⟨w, hcid, _, hname, hfirst, hsecond⟩ :=
    @orders_unknown h cid name coo hmin hunknown
  have hspies := @renamed_true_iff h cid name hunknown
  rw [hfirst, hsecond]
  constructor
  · intro hsame
    have hregistry := congrArg Held.registry hsame
    have hclients := congrFun hregistry false
    have hspy := congrFun hregistry true
    dsimp only at hclients hspy
    rw [Function.update_self, Function.update_self] at hclients
    rw [Function.update_of_ne (by decide), Function.update_of_ne (by decide)] at hspy
    have hstored := congrArg Registry.stored hclients
    rw [Registry.remember_stored, Registry.remember_stored] at hstored
    have hself := (List.cons.inj (List.append_cancel_left hstored)).1
    rw [CInfoWifi.setName_eq_self_iff, hname] at hself
    obtain rfl := CString.resize_eq_empty_iff.mp hself.symm
    exact ⟨rfl, hspies.mp hspy.symm⟩
  · rintro ⟨rfl, hnameless⟩
    have hself : w.setName CString.empty = w := CInfoWifi.setName_eq_self_iff.mpr hname
    have hspy := hspies.mpr hnameless
    rw [hself]
    congr 1
    funext b
    cases b with
    | false => rw [Function.update_self, Function.update_self]
    | true => rw [Function.update_of_ne (by decide), Function.update_of_ne (by decide), hspy]

/-- Both orders give the same state, whichever comes first, and in it the record that the
guest uses has the name and the coordinates. -/
structure OrdersAgree (h : Held) (cid : TCID) (name : CString) (coo : CCoordinate) : Prop where
  same : h.placeThenName cid name coo = h.nameThenPlace cid name coo
  used : ∀ w, ((h.nameThenPlace cid name coo).registry false).Uses cid w → w.Has name coo

/-- The orders change the record that is used: that of the first entry, or the remembered
one. Any other record that is used is right already, and a guest that is not known is
given no name. -/
def FindsUsed (h : Held) (cid : TCID) (name : CString) (coo : CCoordinate) : Prop :=
  if cid < tcidGuestMin then ∀ w, (h.registry false).Uses cid w → w.Has name coo
  else
    match (h.registry false).entries.findIdx? (·.cid = cid) with
    | some i =>
      (∀ e ∈ (h.registry false).entries.eraseIdx i, e.isLive cid = true → e.info.Has name coo) ∧
        ((h.registry false).entries.find? (Entry.isLive cid) = none →
          ∀ w, (h.registry false).given cid = some w → w.Has name coo)
    | none =>
      (h.registry false).stored.any (·.cid = cid) = true ∨ name = CString.empty ∧
        ∀ e, (h.registry true).entries.find? (·.cid = cid) = some e → e.info.name = CString.empty

/-- Where both orders change the registry of the clients alike, only the record that is
used matters. -/
theorem ordersAgree_iff_uses {r : Registry}
    (hfirst : h.nameThenPlace cid name coo =
      { h with registry := Function.update h.registry false r })
    (hsecond : h.placeThenName cid name coo =
      { h with registry := Function.update h.registry false r }) :
    h.OrdersAgree cid name coo ↔ ∀ w, r.Uses cid w → w.Has name coo := by
  have hregistry : (h.nameThenPlace cid name coo).registry false = r := by
    rw [hfirst]
    dsimp only
    rw [Function.update_self]
  constructor
  · rintro ⟨_, hused⟩
    rwa [hregistry] at hused
  · intro hused
    refine ⟨hsecond.trans hfirst.symm, ?_⟩
    rwa [hregistry]

theorem ordersAgree_refused (hmin : cid < tcidGuestMin) :
    h.OrdersAgree cid name coo ↔ ∀ w, (h.registry false).Uses cid w → w.Has name coo := by
  apply ordersAgree_iff_uses
  · rw [nameThenPlace, Request.effect, Request.effect, if_pos hmin, if_pos hmin,
      Function.update_eq_self]
  · rw [placeThenName, Request.effect, Request.effect, if_pos hmin, if_pos hmin,
      Function.update_eq_self]

/-- Both orders change the first entry of the CID. -/
theorem ordersAgree_connected (hmin : ¬ cid < tcidGuestMin) {i : Nat}
    (hentry : (h.registry false).entries.findIdx? (·.cid = cid) = some i) :
    h.OrdersAgree cid name coo ↔
      (∀ e ∈ (h.registry false).entries.eraseIdx i, e.isLive cid = true → e.info.Has name coo) ∧
        ((h.registry false).entries.find? (Entry.isLive cid) = none →
          ∀ w, (h.registry false).given cid = some w → w.Has name coo) := by
  obtain ⟨hfirst, hsecond⟩ := @orders_known h cid name coo hmin _ (Registry.amend_entry hentry)
  rw [ordersAgree_iff_uses hfirst hsecond]
  exact Registry.uses_amendEntry_iff (fun w => w.setName_set_cid name coo)
    (fun w => w.has_setName_set name coo) hentry

/-- Both orders change the record that is remembered, and the guest is given it next. -/
theorem ordersAgree_remembered (hmin : ¬ cid < tcidGuestMin)
    (hentry : (h.registry false).entries.findIdx? (·.cid = cid) = none)
    (hstored : (h.registry false).stored.any (·.cid = cid) = true) :
    h.OrdersAgree cid name coo := by
  rw [← List.findIdx?_isSome, Option.isSome_iff_exists] at hstored
  obtain ⟨i, hi⟩ := hstored
  have hamend : (h.registry false).amend cid (fun w => (w.setName name).set coo) =
      some ((h.registry false).amendStored i fun w => (w.setName name).set coo) := by
    rw [Registry.amend, hentry, hi]
    rfl
  obtain ⟨hfirst, hsecond⟩ := @orders_known h cid name coo hmin _ hamend
  rw [ordersAgree_iff_uses hfirst hsecond]
  intro w huses
  obtain ⟨w₀, rfl⟩ := Registry.uses_amendStored (fun w => w.setName_set_cid name coo)
    hentry hi huses
  exact w₀.has_setName_set name coo

/-- A guest without a record is given one, with the name only if that comes second. -/
theorem ordersAgree_unknown (hmin : ¬ cid < tcidGuestMin)
    (hunknown : (h.registry false).knows cid = false) :
    h.OrdersAgree cid name coo ↔ name = CString.empty ∧
      ∀ e, (h.registry true).entries.find? (·.cid = cid) = some e →
        e.info.name = CString.empty := by
  have hsame := @unknown_same_iff h cid name coo hmin hunknown
  constructor
  · rintro ⟨hagree, _⟩
    exact hsame.mp hagree
  · intro hnameless
    refine ⟨hsame.mpr hnameless, fun w huses => ?_⟩
    obtain ⟨v, hcid, hcoo, hname, hfirst, _⟩ := @orders_unknown h cid name coo hmin hunknown
    rw [hfirst] at huses
    dsimp only at huses
    rw [Function.update_self] at huses
    obtain rfl := Registry.uses_remember hcid hunknown huses
    refine ⟨?_, hcoo⟩
    rw [hname, hnameless.1]
    rfl

theorem ordersAgree_iff (h : Held) (cid : TCID) (name : CString) (coo : CCoordinate) :
    h.OrdersAgree cid name coo ↔ h.FindsUsed cid name coo := by
  rw [FindsUsed]
  split
  · rename_i hmin
    exact ordersAgree_refused hmin
  · rename_i hmin
    split
    · rename_i i hentry
      exact ordersAgree_connected hmin hentry
    · rename_i hentry
      by_cases hstored : (h.registry false).stored.any (·.cid = cid) = true
      · exact iff_of_true (ordersAgree_remembered hmin hentry hstored) (.inl hstored)
      · have hunknown : (h.registry false).knows cid = false := by
          rw [Registry.knows, ← List.findIdx?_isSome, hentry]
          exact Bool.eq_false_iff.mpr hstored
        rw [ordersAgree_unknown hmin hunknown]
        constructor
        · exact .inr
        · exact fun h => h.resolve_left hstored

end Held

/-- A server that nobody has connected to. -/
def idleHeld : Held := ⟨fun _ => ⟨15, [], [], by decide⟩, false, 0⟩

/-- The name of a guest that nobody knows is lost when it comes first. -/
theorem ordersAgree_fails :
    (((idleHeld.nameThenPlace 10 ⟨[97], by decide⟩ ⟨1, 2, 3⟩).registry false).stored.map
        (·.name.bytes) = [[]]) ∧
      (((idleHeld.placeThenName 10 ⟨[97], by decide⟩ ⟨1, 2, 3⟩).registry false).stored.map
        (·.name.bytes) = [[97]]) ∧
      ¬ idleHeld.OrdersAgree 10 ⟨[97], by decide⟩ ⟨1, 2, 3⟩ := by
  have hfirst : ((idleHeld.nameThenPlace 10 ⟨[97], by decide⟩ ⟨1, 2, 3⟩).registry false).stored.map
      (·.name.bytes) = [[]] := by decide +kernel
  have hsecond : ((idleHeld.placeThenName 10 ⟨[97], by decide⟩ ⟨1, 2, 3⟩).registry false).stored.map
      (·.name.bytes) = [[97]] := by decide +kernel
  refine ⟨hfirst, hsecond, fun h => ?_⟩
  rw [h.same, hfirst] at hsecond
  cases hsecond

end Vwifi
