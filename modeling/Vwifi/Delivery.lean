import Mathlib.Data.List.Forall2
import Vwifi.Registry
import Vwifi.SocketSpec

/-!
# What the sending loops do

A frame is handed to the enabled entries one after the other. `Delivers` says
what becomes of the entries and which system calls are made, whatever the calls
return. Where packets can be lost, a recipient may miss a frame at a level of
-40 or less, and misses it for sure at -92 or less.
-/

namespace Vwifi

set_option autoImplicit false

theorem sendSignal_cases (k : Kernel) (d : TDescriptor) (power : TPower) (data : List UInt8) :
    ∃ acts, SendCases d power data (CWifiServer.sendSignal k d power data).1.isSome acts ∧
      k.Writes (CWifiServer.sendSignal k d power data).2 acts :=
  CWifi.sendSignalWithSocket_cases k d power data

namespace CWifi

/-- A packet at this level is lost with some draws. -/
def losable (level : TPower) : Bool := level.toInt ≤ -40

/-- A packet at this level is lost with all draws. -/
def inaudible (level : TPower) : Bool := level.toInt ≤ -92

theorem losable_of_lost {k : Kernel} {level : TPower}
    (h : (packetIsLost k level).1 = true) : losable level = true := by
  simp only [packetIsLost] at h
  rw [losable, decide_eq_true_eq]
  split at h
  · cases h
  · omega

theorem audible_of_kept {k : Kernel} {level : TPower}
    (h : (packetIsLost k level).1 = false) : inaudible level = false := by
  have hlt := Nat.mod_lt k.rand.1 (by decide : 0 < 53)
  simp only [packetIsLost] at h
  rw [inaudible, decide_eq_false_iff_not]
  split at h
  · omega
  · cases h

end CWifi

/-- A frame handed to the entries of a list: an enabled one gets one call of
`SendSignal`, and is disabled when the call fails. -/
inductive Delivers (mayLose : Bool) (level : Entry → TPower) (data : List UInt8) :
    List Entry → List Act → List Entry → Prop where
  | nil : Delivers mayLose level data [] [] []
  | disabled {e : Entry} {es es' : List Entry} {acts : List Act} (h : e.enabled = false)
      (rest : Delivers mayLose level data es acts es') :
      Delivers mayLose level data (e :: es) acts (e :: es')
  | lost {e : Entry} {es es' : List Entry} {acts : List Act} (h : e.enabled = true)
      (hlose : mayLose = true) (hlevel : CWifi.losable (level e) = true)
      (rest : Delivers mayLose level data es acts es') :
      Delivers mayLose level data (e :: es) acts (e :: es')
  | called {e : Entry} {es es' : List Entry} {acts calls : List Act} {sent : Bool}
      (h : e.enabled = true) (hcall : SendCases e.descriptor (level e) data sent calls)
      (hlevel : mayLose = true → CWifi.inaudible (level e) = false)
      (rest : Delivers mayLose level data es acts es') :
      Delivers mayLose level data (e :: es) (calls ++ acts)
        ((if sent then e else e.disable) :: es')

/-- The same connection with the same record, possibly disabled meanwhile. -/
structure Entry.Weakened (e e' : Entry) : Prop where
  descriptor : e'.descriptor = e.descriptor
  info : e'.info = e.info
  enabled : e'.enabled = true → e.enabled = true

theorem Entry.Weakened.refl (e : Entry) : e.Weakened e := ⟨rfl, rfl, id⟩

theorem Entry.Weakened.trans {e e' e'' : Entry} (h : e.Weakened e') (h' : e'.Weakened e'') :
    e.Weakened e'' where
  descriptor := h'.descriptor.trans h.descriptor
  info := h'.info.trans h.info
  enabled := fun he => h.enabled (h'.enabled he)

theorem weakened_trans {es es' es'' : List Entry} (h : List.Forall₂ Entry.Weakened es es')
    (h' : List.Forall₂ Entry.Weakened es' es'') : List.Forall₂ Entry.Weakened es es'' := by
  induction h generalizing es'' with
  | nil => exact h'
  | cons hhead _ ih =>
    cases h' with
    | cons hhead' htail' => exact List.Forall₂.cons (hhead.trans hhead') (ih htail')

theorem Delivers.weakened {mayLose : Bool} {level : Entry → TPower} {data : List UInt8}
    {es es' : List Entry} {acts : List Act} (h : Delivers mayLose level data es acts es') :
    List.Forall₂ Entry.Weakened es es' := by
  induction h with
  | nil => exact List.Forall₂.nil
  | disabled _ _ ih => exact List.Forall₂.cons (Entry.Weakened.refl _) ih
  | lost _ _ _ _ ih => exact List.Forall₂.cons (Entry.Weakened.refl _) ih
  | called h _ _ _ ih =>
    refine List.Forall₂.cons ?_ ih
    split
    · exact Entry.Weakened.refl _
    · exact ⟨rfl, rfl, fun _ => h⟩

theorem map_info_eq {es es' : List Entry} (h : List.Forall₂ Entry.Weakened es es') :
    es'.map Entry.info = es.map Entry.info := by
  induction h with
  | nil => rfl
  | cons h _ ih => rw [List.map_cons, List.map_cons, h.info, ih]

theorem map_descriptor_eq {es es' : List Entry} (h : List.Forall₂ Entry.Weakened es es') :
    es'.map Entry.descriptor = es.map Entry.descriptor := by
  induction h with
  | nil => rfl
  | cons h _ ih => rw [List.map_cons, List.map_cons, h.descriptor, ih]

namespace CWifiServer

/-- What the body of a loop does with the entry `e`. -/
def BodyDelivers (mayLose : Bool) (level : Entry → TPower) (data : List UInt8)
    (body : TIndex → TDescriptor → Kernel → Option (Bool × Kernel)) (i : TIndex) (e : Entry) :
    Prop :=
  ∀ k, ∃ sent k' calls, body i e.descriptor k = some (sent, k') ∧ k.Writes k' calls ∧
    (mayLose = true ∧ CWifi.losable (level e) = true ∧ sent = true ∧ calls = [] ∨
      (mayLose = true → CWifi.inaudible (level e) = false) ∧
        SendCases e.descriptor (level e) data sent calls)

variable {mayLose : Bool} {level : Entry → TPower} {data : List UInt8} {skip : Option TIndex}
  {body : TIndex → TDescriptor → Kernel → Option (Bool × Kernel)}

theorem forEachEnabled_delivers (es : List Entry) (i : TIndex) (k : Kernel)
    (hskip : ∀ j, j < es.length → skip ≠ some (i + j))
    (hbody : ∀ j e, es[j]? = some e → BodyDelivers mayLose level data body (i + j) e) :
    ∃ es' k' acts,
      forEachEnabled skip body i (es.map Entry.socket) k = some (es'.map Entry.socket, k') ∧
        Delivers mayLose level data es acts es' ∧ k.Writes k' acts := by
  induction es generalizing i k with
  | nil => exact ⟨[], k, [], rfl, Delivers.nil, Kernel.Writes.refl k⟩
  | cons e es ih =>
    have hskip' : ∀ j, j < es.length → skip ≠ some (i + 1 + j) := by
      intro j hj
      have := hskip (j + 1) (Nat.succ_lt_succ hj)
      rwa [Nat.add_comm j 1, ← Nat.add_assoc] at this
    have hbody' : ∀ j a, es[j]? = some a → BodyDelivers mayLose level data body (i + 1 + j) a := by
      intro j a ha
      have := hbody (j + 1) a (by rwa [List.getElem?_cons_succ])
      rwa [Nat.add_comm j 1, ← Nat.add_assoc] at this
    have hskip₀ : skip ≠ some i := hskip 0 (Nat.succ_pos _)
    rw [List.map_cons, forEachEnabled]
    by_cases henabled : e.enabled
    · obtain ⟨sent, k₁, calls, hcall, hwrites, hcases⟩ := hbody 0 e rfl k
      obtain ⟨es', k', acts, hrest, hdelivers, hwrites'⟩ := ih (i + 1) k₁ hskip' hbody'
      refine ⟨(if sent then e else e.disable) :: es', k', calls ++ acts, ?_, ?_,
        hwrites.trans hwrites'⟩
      · rw [if_pos ⟨hskip₀, henabled⟩]
        rw [Nat.add_zero] at hcall
        have hcall' : body i e.socket.descriptor k = some (sent, k₁) := hcall
        simp only [hcall', hrest, List.map_cons]
        cases sent <;> rfl
      · rcases hcases with ⟨hlose, hlevel, rfl, rfl⟩ | ⟨hlevel, hcases⟩
        · exact Delivers.lost henabled hlose hlevel hdelivers
        · exact Delivers.called henabled hcases hlevel hdelivers
    · obtain ⟨es', k', acts, hrest, hdelivers, hwrites'⟩ := ih (i + 1) k hskip' hbody'
      refine ⟨e :: es', k', acts, ?_, Delivers.disabled (by simpa using henabled) hdelivers,
        hwrites'⟩
      rw [if_neg (fun h => henabled h.2)]
      simp only [hrest, List.map_cons]

theorem forEachEnabled_append (xs ys : List CInfoSocket) (i : TIndex) (k : Kernel) :
    forEachEnabled skip body i (xs ++ ys) k =
      match forEachEnabled skip body i xs k with
      | none => none
      | some (xs', k) =>
        match forEachEnabled skip body (i + xs.length) ys k with
        | none => none
        | some (ys', k) => some (xs' ++ ys', k) := by
  induction xs generalizing i k with
  | nil =>
    simp only [List.nil_append, forEachEnabled, List.length_nil, Nat.add_zero]
    cases forEachEnabled skip body i ys k <;> rfl
  | cons x xs ih =>
    have hlen : i + (x :: xs).length = i + 1 + xs.length := by
      rw [List.length_cons, Nat.add_assoc, Nat.add_comm 1]
    rw [List.cons_append, forEachEnabled, forEachEnabled, hlen]
    split
    · cases body i x.descriptor k with
      | none => rfl
      | some p =>
        simp only [ih]
        cases forEachEnabled skip body (i + 1) xs p.2 with
        | none => rfl
        | some q =>
          simp only
          cases forEachEnabled skip body (i + 1 + xs.length) ys q.2 <;> rfl
    · simp only [ih]
      cases forEachEnabled skip body (i + 1) xs k with
      | none => rfl
      | some q =>
        simp only
        cases forEachEnabled skip body (i + 1 + xs.length) ys q.2 <;> rfl

theorem forEachEnabled_skip (infoSocket : CInfoSocket) (rest : List CInfoSocket) (i : TIndex)
    (k : Kernel) :
    forEachEnabled (some i) body i (infoSocket :: rest) k =
      match forEachEnabled (some i) body (i + 1) rest k with
      | none => none
      | some (rest, k) => some (infoSocket :: rest, k) := by
  rw [forEachEnabled]
  exact if_neg fun h => h.1 rfl

end CWifiServer

namespace Registry

variable {r : Registry} {mayLose : Bool} {level : Entry → TPower} {data : List UInt8}
  {body : TIndex → TDescriptor → Kernel → Option (Bool × Kernel)}

/-- The registry with other entries in its place. -/
def withEntries (r : Registry) (es : List Entry) : Registry := { r with entries := es }

theorem sendLoop_all (k : Kernel)
    (hbody : ∀ j e, r.entries[j]? = some e →
      CWifiServer.BodyDelivers mayLose level data body j e) :
    ∃ es' k' acts, r.server.sendLoop k none body = some (k', (r.withEntries es').server) ∧
      Delivers mayLose level data r.entries acts es' ∧ k.Writes k' acts := by
  have hbody' : ∀ j e, r.entries[j]? = some e →
      CWifiServer.BodyDelivers mayLose level data body (0 + j) e := by
    intro j e he
    rw [Nat.zero_add]
    exact hbody j e he
  have hskip : ∀ j, j < r.entries.length → (none : Option TIndex) ≠ some (0 + j) := by
    intro j _ hcontra
    cases hcontra
  obtain ⟨es', k', acts, hloop, hdelivers, hwrites⟩ :=
    CWifiServer.forEachEnabled_delivers r.entries 0 k hskip hbody'
  refine ⟨es', k', acts, ?_, hdelivers, hwrites⟩
  simp only [CWifiServer.sendLoop, server, hloop, withEntries, map_info_eq hdelivers.weakened]

/-- The loop leaves its sender `e` alone and serves the entries around it. -/
theorem sendLoop_others {before after : List Entry} {e : Entry}
    (h : r.entries = before ++ e :: after) (k : Kernel)
    (hbody : ∀ j a, r.entries[j]? = some a →
      CWifiServer.BodyDelivers mayLose level data body j a) :
    ∃ before' after' k' acts acts',
      r.server.sendLoop k (some before.length) body =
          some (k', (r.withEntries (before' ++ e :: after')).server) ∧
        Delivers mayLose level data before acts before' ∧
        Delivers mayLose level data after acts' after' ∧ k.Writes k' (acts ++ acts') := by
  have hbefore : ∀ j a, before[j]? = some a →
      CWifiServer.BodyDelivers mayLose level data body (0 + j) a := by
    intro j a ha
    rw [Nat.zero_add]
    apply hbody
    rw [h, List.getElem?_append_left (List.getElem?_eq_some_iff.mp ha).1, ha]
  have hafter : ∀ j a, after[j]? = some a →
      CWifiServer.BodyDelivers mayLose level data body (before.length + 1 + j) a := by
    intro j a ha
    apply hbody
    have hidx : before.length + 1 + j = before.length + (j + 1) := by omega
    rw [h, hidx, List.getElem?_append_right (Nat.le_add_right _ _), Nat.add_sub_cancel_left,
      List.getElem?_cons_succ, ha]
  have hskip : ∀ j, j < before.length → some before.length ≠ some (0 + j) := by
    intro j hj hcontra
    have : before.length = 0 + j := Option.some.inj hcontra
    omega
  have hskip' : ∀ j, j < after.length → some before.length ≠ some (before.length + 1 + j) := by
    intro j _ hcontra
    have : before.length = before.length + 1 + j := Option.some.inj hcontra
    omega
  obtain ⟨before', k₁, acts, hloop, hdelivers, hwrites⟩ :=
    CWifiServer.forEachEnabled_delivers before 0 k hskip hbefore
  obtain ⟨after', k₂, acts', hloop', hdelivers', hwrites'⟩ :=
    CWifiServer.forEachEnabled_delivers after (before.length + 1) k₁ hskip' hafter
  have hlen : (0 : TIndex) + (before.map Entry.socket).length = before.length := by
    rw [Nat.zero_add, List.length_map]
  have hinfo : (before' ++ e :: after').map Entry.info = r.entries.map Entry.info := by
    rw [h, List.map_append, List.map_append, List.map_cons, List.map_cons,
      map_info_eq hdelivers.weakened, map_info_eq hdelivers'.weakened]
  have hsockets : r.entries.map Entry.socket =
      before.map Entry.socket ++ e.socket :: after.map Entry.socket := by
    rw [h, List.map_append, List.map_cons]
  refine ⟨before', after', k₂, acts, acts', ?_, hdelivers, hdelivers', hwrites.trans hwrites'⟩
  simp only [CWifiServer.sendLoop, server, withEntries, hsockets,
    CWifiServer.forEachEnabled_append, hloop, hlen, CWifiServer.forEachEnabled_skip, hloop', hinfo]
  simp

end Registry

end Vwifi
