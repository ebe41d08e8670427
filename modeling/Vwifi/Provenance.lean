import Vwifi.Lib.First
import Vwifi.Recovery
import Vwifi.Remembered
import Vwifi.Requests

/-!
# Where the records come from

As long as the orders arrive intact, whatever is recorded of a guest is what the bytes of
an order asked for it.
-/

namespace Vwifi

set_option autoImplicit false

open Segmented

/-! ## The records of a registry -/

/-- All that a registry knows of its guests, be they connected or not. -/
def CWifiServer.records (s : CWifiServer) : List CInfoWifi := s.infoWifis ++ s.infoWifisDeconnected

/-- What is recorded of a guest was asked for this guest, or it is the origin and no name. -/
structure CInfoWifi.Asked (requests : List Request) (w : CInfoWifi) : Prop where
  place : w.toCCoordinate = CCoordinate.zero ∨
    .changeCoordinate w.cid w.toCCoordinate ∈ requests
  name : w.name = CString.empty ∨
    ∃ name, .setName w.cid name ∈ requests ∧ w.name = name.resize maxSizeName

theorem CInfoWifi.Asked.mono {requests requests' : List Request} {w : CInfoWifi}
    (h : w.Asked requests) (hsub : requests ⊆ requests') : w.Asked requests' where
  place := h.place.imp_right fun hmem => hsub hmem
  name := h.name.imp_right fun ⟨name, hmem, heq⟩ => ⟨name, hsub hmem, heq⟩

namespace Registry

def records (r : Registry) : List CInfoWifi := r.entries.map Entry.info ++ r.stored

variable {r r' : Registry} {requests : List Request}

/-- All records of the registry were asked for. -/
def Asked (requests : List Request) (r : Registry) : Prop := ∀ w ∈ r.records, w.Asked requests

theorem Asked.of_subset (h : r.Asked requests) (hsub : r'.records ⊆ r.records) :
    r'.Asked requests := fun w hw => h w (hsub hw)

theorem records_weakened {es : List Entry} (h : List.Forall₂ Entry.Weakened r.entries es) :
    (r.withEntries es).records = r.records := congrArg (· ++ r.stored) (map_info_eq h)

theorem records_retire {before after : List Entry} {e : Entry}
    (hentries : r.entries = before ++ e :: after) :
    (r.retire before e after).records ⊆ r.records := by
  intro w hw
  simp only [records, retire, hentries, List.map_append, List.map_cons, List.mem_append,
    List.mem_cons] at hw ⊢
  rcases hw with (hw | hw) | hw
  · exact Or.inl (Or.inl hw)
  · exact Or.inl (Or.inr (Or.inr hw))
  · rcases List.mem_append.mp (Bounded.push_subset _ _ _ hw) with hw | hw
    · exact Or.inr hw
    · exact Or.inl (Or.inr (Or.inl (List.mem_singleton.mp hw)))

theorem records_clear : r.clear.records ⊆ r.records := by
  intro w hw
  rcases List.mem_append.mp (Bounded.pushAll_subset _ _ _ hw) with hw | hw
  · exact List.mem_append_right _ hw
  · exact List.mem_append_left _ hw

theorem asked_connect {d : TDescriptor} {cid : TCID} (h : r.Asked requests)
    (hconnect : r.connect d cid = some r') : r'.Asked requests := by
  have hadd : ∀ (q : Registry) (w : CInfoWifi), q.records ⊆ r.records → w.Asked requests →
      (q.add d w).Asked requests := by
    intro q w hsub hw w' hw'
    simp only [records, add, List.map_append, List.mem_append, List.map_cons, List.map_nil,
      List.mem_singleton] at hw'
    rcases hw' with (hold | rfl) | hold
    · exact h w' (hsub (List.mem_append_left _ hold))
    · exact hw
    · exact h w' (hsub (List.mem_append_right _ hold))
  unfold connect at hconnect
  split at hconnect
  · rename_i w hstored
    cases hconnect
    apply hadd
    · intro w' hw'
      rcases List.mem_append.mp hw' with hw' | hw'
      · exact List.mem_append_left _ hw'
      · exact List.mem_append_right _ (List.mem_of_mem_eraseP hw')
    · exact h w (List.mem_append_right _ (List.mem_of_find?_eq_some hstored))
  · split at hconnect
    · rename_i e hlive
      cases hconnect
      apply hadd
      · intro w' hw'
        rw [records, displace_info] at hw'
        exact hw'
      · have he := List.mem_of_find?_eq_some hlive
        exact h e.info (List.mem_append_left _ (List.mem_map_of_mem he))
    · obtain ⟨w, hw, rfl⟩ := Option.map_eq_some_iff.mp hconnect
      apply hadd r w (List.Subset.refl _)
      unfold CInfoWifi.setCid at hw
      split at hw
      · cases hw
        exact ⟨Or.inl rfl, Or.inl rfl⟩
      · cases hw

section Amended

variable {cid : TCID} {i : Nat} {f : CInfoWifi → CInfoWifi} {w : CInfoWifi}

theorem mem_records_amendEntry (hi : r.entries.findIdx? (·.cid = cid) = some i)
    (hw : w ∈ (r.amendEntry i f).records) :
    w ∈ r.records ∨ ∃ w' ∈ r.records, w'.cid = cid ∧ w = f w' := by
  rcases List.mem_append.mp hw with hw | hw
  · obtain ⟨e, he, rfl⟩ := List.mem_map.mp hw
    rcases First.mem_modify_findIdx? hi he with hold | ⟨e', he', hcid, rfl⟩
    · exact Or.inl (List.mem_append_left _ (List.mem_map_of_mem hold))
    · refine Or.inr ⟨e'.info, List.mem_append_left _ (List.mem_map_of_mem he'), ?_, rfl⟩
      exact of_decide_eq_true hcid
  · exact Or.inl (List.mem_append_right _ hw)

theorem mem_records_amendStored (hi : r.stored.findIdx? (·.cid = cid) = some i)
    (hw : w ∈ (r.amendStored i f).records) :
    w ∈ r.records ∨ ∃ w' ∈ r.records, w'.cid = cid ∧ w = f w' := by
  rcases List.mem_append.mp hw with hw | hw
  · exact Or.inl (List.mem_append_left _ hw)
  · rcases First.mem_modify_findIdx? hi hw with hold | ⟨w', hw', hcid, rfl⟩
    · exact Or.inl (List.mem_append_right _ hold)
    · exact Or.inr ⟨w', List.mem_append_right _ hw', of_decide_eq_true hcid, rfl⟩

end Amended

theorem asked_storeCoordinate {w : CInfoWifi} (h : r.Asked requests) (hw : w.Asked requests) :
    (r.storeCoordinate w).Asked requests := by
  have hset : ∀ w' ∈ r.records, w'.cid = w.cid →
      (w'.set w.toCCoordinate).Asked requests := by
    intro w' hw' hcid
    have hplace := hw.place
    rw [← hcid] at hplace
    exact ⟨hplace, (h w' hw').name⟩
  intro w' hw'
  unfold storeCoordinate at hw'
  split at hw'
  · rename_i i hi
    rcases mem_records_amendEntry hi hw' with hold | ⟨w'', hmem, hcid, rfl⟩
    · exact h w' hold
    · exact hset w'' hmem hcid
  · split at hw'
    · rename_i i hi
      rcases mem_records_amendStored hi hw' with hold | ⟨w'', hmem, hcid, rfl⟩
      · exact h w' hold
      · exact hset w'' hmem hcid
    · rcases List.mem_append.mp hw' with hold | hpushed
      · exact h w' (List.mem_append_left _ hold)
      · rcases List.mem_append.mp (Bounded.push_subset _ _ _ hpushed) with hold | hnew
        · exact h w' (List.mem_append_right _ hold)
        · rw [List.mem_singleton.mp hnew]
          exact hw

theorem asked_setName {cid : TCID} {name : CString} {w : CInfoWifi} (h : w.Asked requests)
    (hname : .setName cid name ∈ requests) (hcid : w.cid = cid) :
    (w.setName name).Asked requests := by
  rw [← hcid] at hname
  refine ⟨?_, Or.inr ⟨name, ?_, CInfoWifi.name_setName w name⟩⟩
  · rw [CInfoWifi.setName_toCCoordinate, CInfoWifi.setName_cid]
    exact h.place
  · rw [CInfoWifi.setName_cid]
    exact hname

theorem asked_nameEntry {cid : TCID} {name : CString} {i : Nat} (h : r.Asked requests)
    (hname : .setName cid name ∈ requests) (hi : r.entries.findIdx? (·.cid = cid) = some i) :
    (r.amendEntry i (·.setName name)).Asked requests := by
  intro w hw
  rcases mem_records_amendEntry hi hw with hold | ⟨w', hmem, hcid, rfl⟩
  · exact h w hold
  · exact asked_setName (h w' hmem) hname hcid

theorem asked_storeName {cid : TCID} {name : CString} (h : r.Asked requests)
    (hname : .setName cid name ∈ requests) (heq : r.storeName cid name = some r') :
    r'.Asked requests := by
  unfold storeName at heq
  split at heq
  · rename_i i hi
    cases heq
    exact asked_nameEntry h hname hi
  · obtain ⟨i, hi, rfl⟩ := Option.map_eq_some_iff.mp heq
    intro w hw
    rcases mem_records_amendStored hi hw with hold | ⟨w', hmem, hcid, rfl⟩
    · exact h w hold
    · exact asked_setName (h w' hmem) hname hcid

end Registry

/-! ## Steps -/

theorem asked_ofCoordinate {requests : List Request} {cid : TCID} {coo : CCoordinate}
    {w : CInfoWifi} (hasked : .changeCoordinate cid coo ∈ requests)
    (hw : CInfoWifi.ofCoordinate cid coo = some w) : w.Asked requests := by
  unfold CInfoWifi.ofCoordinate CInfoWifi.setCid at hw
  split at hw
  · cases hw
    exact ⟨Or.inr hasked, Or.inl rfl⟩
  · cases hw

theorem Request.asked_effect {h : Held} {request : Request} {requests : List Request}
    (hall : ∀ b, (h.registry b).Asked requests) (hasked : request ∈ requests) (b : Bool) :
    ((request.effect h).registry b).Asked requests := by
  cases request with
  | question order => exact hall b
  | distanceBetweenCid cid1 cid2 => exact hall b
  | packetLoss value => exact hall b
  | setScale scale => exact hall b
  | closeAllClient => exact (hall b).of_subset Registry.records_clear
  | changeCoordinate cid coo =>
    simp only [effect, Held.storeCoordinate]
    split
    · exact hall b
    · split
      · exact hall b
      · rename_i w hw
        cases b with
        | true => exact hall true
        | false => exact Registry.asked_storeCoordinate (hall false) (asked_ofCoordinate hasked hw)
  | setName cid name =>
    simp only [effect, Held.storeName, Server.renamed]
    split
    · exact hall b
    · split
      · rename_i r hr
        cases b with
        | true => exact hall true
        | false => exact Registry.asked_storeName (hall false) hasked hr
      · split
        · rename_i i hi
          cases b with
          | true => exact Registry.asked_nameEntry (hall true) hasked hi
          | false => exact hall false
        · exact hall b

/-- An order of the label arrives intact. -/
def Label.Intact : Label → Prop
  | .order inc _ => OrderIntact inc.inbox
  | _ => True

namespace Config

variable {medium : Medium} {c c' : Config} {l : Label} {v v' : Bool → Registry}

theorem visit_asked {srcIsSpy : Bool} {r q r' q' : Registry} {g g' : Globals}
    {before after : List Entry} {e : Entry} {i : TIndex} {requests : List Request}
    (h : Pass.VisitCases medium srcIsSpy r q g before e after r' q' g' i)
    (hentries : r.entries = before ++ e :: after) (hr : r.Asked requests) (hq : q.Asked requests) :
    r'.Asked requests ∧ q'.Asked requests := by
  cases h with
  | disabled henabled => exact ⟨hr.of_subset (Registry.records_retire hentries), hq⟩
  | unreadable henabled hready hfail => exact ⟨hr.of_subset (Registry.records_retire hentries), hq⟩
  | idle => exact ⟨hr, hq⟩
  | forwarded _ _ _ hbefore hafter hothers =>
    refine ⟨hr.of_subset ?_, hq.of_subset ?_⟩
    · rw [Registry.records_weakened]
      · exact List.Subset.refl _
      · rw [hentries]
        exact List.rel_append hbefore.weakened
          (List.Forall₂.cons (Entry.Weakened.refl e) hafter.weakened)
    · rw [Registry.records_weakened hothers.weakened]
      exact List.Subset.refl _

theorem step_asked {requests : List Request} (hv : c.Sees v) (hv' : c'.Sees v')
    (hintact : l.Intact) (hstep : step medium c l = some c')
    (hcases : StepCases medium c l v c' v') (hall : ∀ b, (v b).Asked requests) (b : Bool) :
    (v' b).Asked (requests ++ c.orders l) := by
  have hmore : ∀ b, (v b).Asked (requests ++ c.orders l) := fun b w hw =>
    (hall b w hw).mono (List.subset_append_left _ _)
  cases hcases with
  | select r hphase hlabel => exact hmore b
  | skip hskip hlabel => exact hmore b
  | @accept _ isSpy inc cid r haccept hunused hconnect =>
    by_cases hb : b = isSpy
    · subst hb
      rw [Function.update_self]
      exact Registry.asked_connect (hmore b) hconnect
    · rw [Function.update_of_ne hb]
      exact hmore b
  | @order inc stack s' _ hphase hlabel hready hunused hreceived =>
    subst hlabel
    have horders : c.orders (.order inc stack) = (Request.decode (supply inc.inbox)).toList := by
      simp only [Config.orders, hphase]
    rw [order_step_intact hv hphase hintact hstep hv'.views]
    rw [horders] at hmore ⊢
    generalize Request.decode (supply inc.inbox) = meant at hmore ⊢
    cases meant with
    | none => exact hmore b
    | some request =>
      apply Request.asked_effect hmore
      exact List.mem_append_right _ List.mem_cons_self
  | @visit srcIsSpy before after e r q g i hphase hlabel hentries hvisit =>
    obtain ⟨hr, hq⟩ := visit_asked hvisit hentries (hmore srcIsSpy) (hmore !srcIsSpy)
    by_cases hb : b = srcIsSpy
    · subst hb
      rw [Function.update_of_ne (by simp), Function.update_self]
      exact hr
    · have hb' : b = !srcIsSpy := by cases b <;> cases srcIsSpy <;> simp_all
      subst hb'
      rw [Function.update_self]
      exact hq

/-! ## Runs -/

/-- As long as the orders arrive intact, and for guests and spies alike: the place and the
name that a record has are the origin and no name, or the bytes of an order asked for
them, for just this CID. -/
theorem records_asked {setup : Setup} {ls : List Label} (hintact : ∀ l ∈ ls, l.Intact)
    (hrun : Lts.run (step medium) (init setup) ls = some c) (b : Bool) :
    ∀ w ∈ (c.server.registry b).records,
      w.Asked (Lts.outputs (step medium) orders (init setup) ls) := by
  have hinv := @Lts.outputs_invariant _ _ (step medium) _ orders
    (fun c asked => ∃ v, c.Sees v ∧ ∀ b, (v b).Asked asked) (fun _ l => l.Intact) (init setup) c
    ls []
    (fun c asked l c' hinv hl hstep => by
      obtain ⟨v, hv, hall⟩ := hinv
      obtain ⟨v', hv', hcases⟩ := step_cases hv hstep
      exact ⟨v', hv', step_asked hv hv' hl hstep hcases hall⟩)
    ⟨initialView, init_sees setup, fun b w hw => absurd hw List.not_mem_nil⟩
    (Lts.steps_of_labels hintact _) hrun
  obtain ⟨v, hv, hall⟩ := hinv
  rw [hv.views b]
  exact hall b

/-- A client connects and is moved. -/
def moves : List Label :=
  Label.joins ⟨10, [], []⟩ ⟨0x020010AC, 0⟩ 3 ++
    Label.asks [[3, 0, 0, 0], [0xAC, 0x12, 0, 0], [1, 0, 0, 0, 2, 0, 0, 0, 3, 0, 0, 0]] 3

theorem records_asked_moves : ∃ c, Lts.run (step Medium.uniform) (init Setup.tcp) moves = some c ∧
    (c.server.registry false).records.map CInfoWifi.toCCoordinate = [⟨1, 2, 3⟩] ∧
      ∀ w ∈ (c.server.registry false).records,
        w.Asked (Lts.outputs (step Medium.uniform) orders (init Setup.tcp) moves) := by
  have hrun : (Lts.run (step Medium.uniform) (init Setup.tcp) moves).map
      (fun c => (c.server.registry false).records.map CInfoWifi.toCCoordinate) =
        some [⟨1, 2, 3⟩] := by
    decide +kernel
  have hintact : ∀ l ∈ moves, l.Intact := by
    have horder : OrderIntact
        [[3, 0, 0, 0], [0xAC, 0x12, 0, 0], [1, 0, 0, 0, 2, 0, 0, 0, 3, 0, 0, 0]] :=
      Or.inr ⟨rfl, Or.inr (Or.inr ⟨rfl, Or.inr rfl⟩)⟩
    intro l hl
    cases l with
    | order inc stack =>
      simp [moves, Label.joins, Label.asks] at hl
      rw [Label.Intact, hl.1]
      exact horder
    | _ => trivial
  obtain ⟨c, hc, hplaces⟩ := Option.map_eq_some_iff.mp hrun
  exact ⟨c, hc, hplaces, records_asked hintact hc false⟩

end Config

end Vwifi
