import Vwifi.Handling
import Vwifi.MainLoop

/-!
# Orders cut short or cut to pieces

A `Read` that brings fewer bytes than asked counts as a success, and `SetName`
does not look at the size it has read. So an order has the effect its bytes
encode exactly when they arrive in the right pieces.
-/

namespace Vwifi

set_option autoImplicit false

open LittleEndian Segmented

/-! ## Arrivals -/

section Arrivals

variable {n : Nat} {segments : List (List UInt8)}

theorem supply_of_arriving_nil (hn : 0 < n) (h : arriving n segments = []) : supply segments = [] :=
  (deliver_eq_nil_iff hn segments).mp h

theorem supply_arriving (h : arriving n segments ≠ []) :
    supply segments = arriving n segments ++ supply (remaining n segments) := supply_deliver h

theorem arriving_length_le (n : Nat) (segments : List (List UInt8)) :
    (arriving n segments).length ≤ n := deliver_length_le n segments

theorem fill_whole {v : Var} {bytes : List UInt8} (h : bytes.length = v.bytes.length) :
    (v.fill bytes).bytes = bytes := by
  rw [Var.fill, h, List.drop_length, List.append_nil]

theorem fill_toCID (stack : Stack) (l : Local) {bytes : List UInt8} (h : bytes.length = 4) :
    ((Var.uninitialised stack l 4).fill bytes).toCID = Request.cidOf bytes := by
  rw [Var.toCID, Var.toNat, fill_whole (by rw [h, Var.uninitialised_length]), Request.cidOf]

end Arrivals

/-! ## Intact orders -/

/-- What a handler leaves when it does what is wanted and looks at no byte that
was not received. -/
def Clean (wanted : Held) (result : Option (List (Nat × Nat) × Held)) : Prop :=
  ∃ uses, result = some (uses, wanted) ∧ ∀ u ∈ uses, u.1 ≤ u.2

/-- The name in the bytes behind a CID, as the size before it announces it. -/
def nameSent (segments : List (List UInt8)) : Option CString :=
  Request.nameOf (Request.sizeOf ((supply segments).take 4)) ((supply segments).drop 4)

/-- The arguments of an order arrive as its handler expects them: a `Read` finds
nothing more, or every `Read` whose variable is used brings the whole variable.
A name must arrive with its terminator, and be the one its size announces. -/
def ArgumentsIntact : TOrder → List (List UInt8) → Prop
  | .torderChangeCoordinate, segments =>
    let cid := arriving 4 segments
    let coo := arriving 12 (remaining 4 segments)
    cid = [] ∨ coo = [] ∨
      cid.length = 4 ∧ (Request.cidOf cid < tcidGuestMin ∨ coo.length = 12)
  | .torderSetName, segments =>
    let cid := arriving 4 segments
    let sizeName := arriving 4 (remaining 4 segments)
    let strName := arriving (maxSizeName + 1) (remaining 4 (remaining 4 segments))
    cid = [] ∨ sizeName = [] ∨ strName = [] ∨
      cid.length = 4 ∧ (Request.cidOf cid < tcidGuestMin ∨
        0 ∈ strName ∧ ∃ name, nameSent (remaining 4 segments) = some name ∧
          name.resize maxSizeName = CString.ofBuffer strName)
  | .torderPacketLoss, segments =>
    arriving 4 segments = [] ∨ (arriving 4 segments).length = 4
  | .torderSetScale, segments =>
    arriving 8 segments = [] ∨ (arriving 8 segments).length = 8
  | .torderDistanceBetweenCid, segments =>
    let cid1 := arriving 4 segments
    let cid2 := arriving 4 (remaining 4 segments)
    cid1 = [] ∨ cid2 = [] ∨
      cid1.length = 4 ∧ (Request.cidOf cid1 = 1 ∨ Request.cidOf cid1 = 2 ∨ cid2.length = 4)
  | _, _ => True

def OrderIntact (segments : List (List UInt8)) : Prop :=
  arriving 4 segments = [] ∨
    (arriving 4 segments).length = 4 ∧
      ArgumentsIntact (TOrder.ofCode (value (arriving 4 segments))) (remaining 4 segments)

/-- In every state the handler does with the bytes that arrive what they mean. -/
def ArgumentsHandled (order : TOrder) (segments : List (List UInt8)) : Prop :=
  ∀ stack h, Clean (Request.carriedOut h (Request.ofArguments order (supply segments)))
    (handled stack h order segments)

/-- A server that knows one disconnected client. -/
def Held.knowing (w : CInfoWifi) : Held where
  registry := fun isSpy => ⟨if isSpy then 1 else wifiMaxDeconnectedClient, [],
    if isSpy then [] else [w], Registry.capacity_pos isSpy⟩
  canLostPackets := false
  scale := 0

/-- 1 and 2 are the CIDs of the hypervisor and of the host, no guest has them. -/
theorem cid_of_not_ok {cid : TCID} (h : ¬ (cid = 0 ∨ tcidGuestMin ≤ cid)) : cid = 1 ∨ cid = 2 := by
  have hlt : cid.toNat < 3 := by
    have hmin : cid < tcidGuestMin := UInt32.not_le.mp fun hle => h (Or.inr hle)
    exact UInt32.lt_iff_toNat_lt.mp hmin
  have hzero : cid.toNat ≠ 0 := fun heq => h (Or.inl (UInt32.toNat_inj.mp heq))
  have hcases : cid.toNat = 1 ∨ cid.toNat = 2 := by omega
  exact hcases.imp (fun h => UInt32.toNat_inj.mp h) fun h => UInt32.toNat_inj.mp h

theorem Registry.knows_ok {r : Registry} {cid : TCID} (h : r.knows cid = true) :
    cid = 0 ∨ tcidGuestMin ≤ cid := by
  rw [knows, Bool.or_eq_true, List.any_eq_true, List.any_eq_true] at h
  rcases h with ⟨e, _, he⟩ | ⟨w, _, hw⟩
  · rw [decide_eq_true_eq] at he
    exact he ▸ e.info.cidOk
  · rw [decide_eq_true_eq] at hw
    exact hw ▸ w.cidOk

theorem Held.storeName_resize (h : Held) (cid : TCID) (name : CString) :
    h.storeName cid (name.resize maxSizeName) = h.storeName cid name := by
  simp only [Held.storeName, Server.renamed, Registry.storeName, CInfoWifi.setName_resize]

/-- The one record of `knowing` gets the name, cut to its maximal size. -/
theorem Held.storeName_knowing (w : CInfoWifi) (name : CString) :
    ((((knowing w).storeName w.cid name).registry false).stored.map CInfoWifi.name) =
      [name.resize maxSizeName] := by
  have hfind : ((knowing w).registry false).storeName w.cid name =
      some (((knowing w).registry false).amendStored 0 (·.setName name)) := by
    simp [Registry.storeName, knowing]
  simp only [storeName, Server.renamed_false, hfind, Option.getD_some]
  exact congrArg (fun n => [n]) (CInfoWifi.name_setName w name)

section Orders

variable {segments : List (List UInt8)}

theorem clean_some {h wanted : Held} {uses : List (Nat × Nat)} :
    Clean wanted (some (uses, h)) ↔ h = wanted ∧ ∀ u ∈ uses, u.1 ≤ u.2 := by
  constructor
  · rintro ⟨_, heq, huses⟩
    obtain ⟨rfl, rfl⟩ := Prod.mk.inj (Option.some.inj heq)
    exact ⟨rfl, huses⟩
  · rintro ⟨rfl, huses⟩
    exact ⟨uses, rfl, huses⟩

theorem clean_none (h : Held) : Clean h (some ([], h)) :=
  clean_some.mpr ⟨rfl, fun _ hu => absurd hu List.not_mem_nil⟩

/-- An order with one argument of `n` bytes. -/
theorem single_handled_iff {order : TOrder} {n : Nat} {l : Local} {store : List UInt8 → Held → Held}
    (hn : 0 < n)
    (hhandled : ∀ stack h, handled stack h order segments =
      if arriving n segments = [] then some ([], h)
      else some ([(n, (arriving n segments).length)],
        store ((Var.uninitialised stack l n).fill (arriving n segments)).bytes h))
    (hmeans : ∀ h bytes, Request.carriedOut h (Request.ofArguments order bytes) =
      if n ≤ bytes.length then store (bytes.take n) h else h) :
    ArgumentsHandled order segments ↔
      arriving n segments = [] ∨ (arriving n segments).length = n := by
  have hlen := arriving_length_le n segments
  by_cases hnil : arriving n segments = []
  · refine ⟨fun _ => Or.inl hnil, fun _ stack h => ?_⟩
    have hshort : ¬ n ≤ ([] : List UInt8).length := Nat.not_le.mpr hn
    rw [hhandled, hmeans, if_pos hnil, supply_of_arriving_nil hn hnil, if_neg hshort]
    exact clean_none h
  · constructor
    · intro hall
      have hclean := hall (fun _ _ => 0) (Held.knowing CInfoWifi.default)
      rw [hhandled, if_neg hnil] at hclean
      exact Or.inr (Nat.le_antisymm hlen ((clean_some.mp hclean).2 _ List.mem_cons_self))
    · rintro (hcontra | hwhole)
      · exact absurd hcontra hnil
      · intro stack h
        have henough : n ≤ (supply segments).length := by
          rw [supply_arriving hnil, List.length_append]
          omega
        rw [hhandled, if_neg hnil]
        refine clean_some.mpr ⟨?_, by simp [hwhole]⟩
        rw [hmeans, if_pos henough, supply_arriving hnil, List.take_left' hwhole,
          fill_whole (by rw [hwhole, Var.uninitialised_length])]

theorem packetLoss_handled_iff :
    ArgumentsHandled .torderPacketLoss segments ↔ ArgumentsIntact .torderPacketLoss segments := by
  apply @single_handled_iff segments _ 4 .value
    (fun bytes h => { h with canLostPackets := value bytes ≠ 0 }) (by decide)
  · intro stack h
    rfl
  · intro h bytes
    rw [Request.ofArguments]
    split <;> rfl

theorem setScale_handled_iff :
    ArgumentsHandled .torderSetScale segments ↔ ArgumentsIntact .torderSetScale segments := by
  apply @single_handled_iff segments _ 8 .newScale
    (fun bytes h => { h with scale := UInt64.ofNat (value bytes) }) (by decide)
  · intro stack h
    rfl
  · intro h bytes
    rw [Request.ofArguments]
    split <;> rfl

/-- When the second of two reads fails, at most the first variable was sent. -/
theorem supply_length_of_second_nil {n m : Nat} (hm : 0 < m) (hfirst : arriving n segments ≠ [])
    (hsecond : arriving m (remaining n segments) = []) : (supply segments).length ≤ n := by
  rw [supply_arriving hfirst, supply_of_arriving_nil hm hsecond, List.append_nil]
  exact arriving_length_le n segments

/-- An order with a CID and an argument of `m` bytes that is looked at for some CIDs only. -/
theorem pair_handled_iff {order : TOrder} {m : Nat} {l : Local} {second : Stack → Var}
    {needed : TCID → Held → Prop} [∀ cid h, Decidable (needed cid h)]
    {store : TCID → List UInt8 → Held → Held} (hm : 0 < m)
    (hsecond : ∀ stack, (second stack).bytes.length = m)
    (hhandled : ∀ stack h, handled stack h order segments =
      if arriving 4 segments = [] ∨ arriving m (remaining 4 segments) = [] then some ([], h)
      else if needed ((Var.uninitialised stack l 4).fill (arriving 4 segments)).toCID h then
        some ([(4, (arriving 4 segments).length), (m, (arriving m (remaining 4 segments)).length)],
          store ((Var.uninitialised stack l 4).fill (arriving 4 segments)).toCID
            ((second stack).fill (arriving m (remaining 4 segments))).bytes h)
      else some ([(4, (arriving 4 segments).length)], h))
    (hmeans : ∀ h bytes, Request.carriedOut h (Request.ofArguments order bytes) =
      if 4 + m ≤ bytes.length ∧ needed (Request.cidOf (bytes.take 4)) h then
        store (Request.cidOf (bytes.take 4)) ((bytes.drop 4).take m) h
      else h) :
    ArgumentsHandled order segments ↔
      arriving 4 segments = [] ∨ arriving m (remaining 4 segments) = [] ∨
        (arriving 4 segments).length = 4 ∧
          ((∀ h, ¬ needed (Request.cidOf (arriving 4 segments)) h) ∨
            (arriving m (remaining 4 segments)).length = m) := by
  have hlen := arriving_length_le 4 segments
  have hlen' := arriving_length_le m (remaining 4 segments)
  by_cases hread : arriving 4 segments = [] ∨ arriving m (remaining 4 segments) = []
  · refine ⟨fun _ => hread.elim Or.inl fun h => Or.inr (Or.inl h), fun _ stack h => ?_⟩
    have hshort : (supply segments).length ≤ 4 := by
      by_cases hcid : arriving 4 segments = []
      · rw [supply_of_arriving_nil (Nat.succ_pos 3) hcid]
        exact Nat.zero_le 4
      · exact supply_length_of_second_nil hm hcid (hread.resolve_left hcid)
    rw [hhandled, hmeans, if_pos hread, if_neg fun hwhole => by omega]
    exact clean_none h
  constructor
  · intro hall
    have hwhole : (arriving 4 segments).length = 4 := by
      have hclean := hall (fun _ _ => 0) (Held.knowing CInfoWifi.default)
      rw [hhandled, if_neg hread] at hclean
      split at hclean <;>
        exact Nat.le_antisymm hlen ((clean_some.mp hclean).2 _ List.mem_cons_self)
    refine Or.inr (Or.inr ⟨hwhole, ?_⟩)
    by_cases hnone : ∀ h, ¬ needed (Request.cidOf (arriving 4 segments)) h
    · exact Or.inl hnone
    · obtain ⟨h, hneeded⟩ := not_forall_not.mp hnone
      have hclean := hall (fun _ _ => 0) h
      rw [hhandled, if_neg hread, fill_toCID _ _ hwhole, if_pos hneeded] at hclean
      have huse := (clean_some.mp hclean).2 _ (List.mem_cons_of_mem _ List.mem_cons_self)
      exact Or.inr (Nat.le_antisymm hlen' huse)
  · rintro (hcontra | hcontra | ⟨hwhole, hrest⟩)
    · exact absurd (Or.inl hcontra) hread
    · exact absurd (Or.inr hcontra) hread
    intro stack h
    obtain ⟨hcid, hsome⟩ := not_or.mp hread
    have hsupply := supply_arriving hcid
    have hsupply' := supply_arriving hsome
    have htake : (supply segments).take 4 = arriving 4 segments := by
      rw [hsupply, List.take_left' hwhole]
    rw [hhandled, hmeans, if_neg hread, fill_toCID _ _ hwhole, htake]
    by_cases hneeded : needed (Request.cidOf (arriving 4 segments)) h
    · have hwhole' := hrest.resolve_left fun hnone => hnone h hneeded
      have henough : 4 + m ≤ (supply segments).length := by
        rw [hsupply, hsupply', List.length_append, List.length_append]
        omega
      have hdrop : ((supply segments).drop 4).take m = arriving m (remaining 4 segments) := by
        rw [hsupply, List.drop_left' hwhole, hsupply', List.take_left' hwhole']
      rw [if_pos hneeded, if_pos ⟨henough, hneeded⟩, hdrop,
        fill_whole (hwhole'.trans (hsecond stack).symm)]
      exact clean_some.mpr ⟨rfl, by simp [hwhole, hwhole']⟩
    · rw [if_neg hneeded, if_neg fun hboth => hneeded hboth.2]
      exact clean_some.mpr ⟨rfl, by simp [hwhole]⟩

theorem changeCoordinate_handled_iff :
    ArgumentsHandled .torderChangeCoordinate segments ↔
      ArgumentsIntact .torderChangeCoordinate segments := by
  have hpair := @pair_handled_iff segments .torderChangeCoordinate 12 .cid
    (fun _ => ⟨CCoordinate.zero.bytes, 0⟩) (fun cid _ => ¬ cid < tcidGuestMin) _
    (fun cid bytes h => h.storeCoordinate cid (CCoordinate.ofBytes bytes)) (by decide)
    (fun _ => CCoordinate.bytes_length _)
  have hconst : ∀ p : Prop, (∀ _ : Held, p) ↔ p := fun p =>
    ⟨fun h => h (Held.knowing CInfoWifi.default), fun h _ => h⟩
  simp only [not_not, hconst] at hpair
  apply hpair
  · intro stack h
    simp only [handled, ite_not]
  · intro h bytes
    rw [Request.ofArguments]
    by_cases henough : 16 ≤ bytes.length
    · by_cases hmin : Request.cidOf (bytes.take 4) < tcidGuestMin
      · rw [if_pos henough, if_neg fun hboth => hboth.2 hmin]
        exact if_pos hmin
      · rw [if_pos henough, if_pos ⟨henough, hmin⟩]
        exact if_neg hmin
    · rw [if_neg henough, if_neg fun hboth => henough hboth.1]
      rfl

/-- The CIDs of which some server knows a record. -/
theorem knows_never_iff {cid : TCID} :
    (∀ h : Held, ¬ (h.registry false).knows cid = true) ↔ cid = 1 ∨ cid = 2 := by
  constructor
  · intro hnever
    apply cid_of_not_ok
    intro hok
    apply hnever (Held.knowing ⟨CCoordinate.zero, cid, CString.empty, hok, Nat.zero_le _⟩)
    simp [Held.knowing, Registry.knows]
  · rintro (rfl | rfl) h hknows
    · exact absurd (Registry.knows_ok hknows) (by decide)
    · exact absurd (Registry.knows_ok hknows) (by decide)

theorem distance_handled_iff :
    ArgumentsHandled .torderDistanceBetweenCid segments ↔
      ArgumentsIntact .torderDistanceBetweenCid segments := by
  have hpair := @pair_handled_iff segments .torderDistanceBetweenCid 4 .cid1
    (fun stack => .uninitialised stack .cid2 4)
    (fun cid h => (h.registry false).knows cid = true) _ (fun _ _ h => h) (by decide)
    (fun stack => Var.uninitialised_length _ _ _)
  simp only [knows_never_iff, or_assoc] at hpair
  apply hpair
  · intro stack h
    simp only [handled]
    split
    · rfl
    · split
      · rfl
      · rfl
  · intro h bytes
    rw [ite_self, Request.ofArguments]
    split
    · rfl
    · rfl

theorem ofArguments_setName_of_length_le {bytes : List UInt8} (h : bytes.length ≤ 8) :
    Request.ofArguments .torderSetName bytes = none := by
  have hempty : bytes.drop 8 = [] := List.drop_eq_nil_iff.mpr h
  rw [Request.ofArguments, hempty]
  split
  · rw [Request.nameOf, if_neg]
    · rfl
    · rintro ⟨hsize, hle, _⟩
      rw [List.length_nil] at hle
      omega
  · rfl

theorem supply_length_of_third_nil
    (hread : arriving 4 segments = [] ∨ arriving 4 (remaining 4 segments) = [] ∨
      arriving (maxSizeName + 1) (remaining 4 (remaining 4 segments)) = []) :
    (supply segments).length ≤ 8 := by
  by_cases hcid : arriving 4 segments = []
  · rw [supply_of_arriving_nil (Nat.succ_pos 3) hcid]
    exact Nat.zero_le 8
  by_cases hsize : arriving 4 (remaining 4 segments) = []
  · have hle := supply_length_of_second_nil (Nat.succ_pos 3) hcid hsize
    omega
  · have hname := (hread.resolve_left hcid).resolve_left hsize
    have hle := supply_length_of_second_nil (Nat.succ_pos maxSizeName) hsize hname
    have hlen := arriving_length_le 4 segments
    rw [supply_arriving hcid, List.length_append]
    omega

/-- What the bytes of a name order mean, once the four bytes of its CID are read. -/
theorem carriedOut_setName (hcid : (arriving 4 segments).length = 4) (h : Held) :
    Request.carriedOut h (Request.ofArguments .torderSetName (supply segments)) =
      if Request.cidOf (arriving 4 segments) < tcidGuestMin then h
      else
        match nameSent (remaining 4 segments) with
        | some name => h.storeName (Request.cidOf (arriving 4 segments)) name
        | none => h := by
  have hne : arriving 4 segments ≠ [] := by
    rintro hnil
    rw [hnil] at hcid
    cases hcid
  have hsupply := supply_arriving hne
  have htake : (supply segments).take 4 = arriving 4 segments := by
    rw [hsupply, List.take_left' hcid]
  have hdrop : (supply segments).drop 4 = supply (remaining 4 segments) := by
    rw [hsupply, List.drop_left' hcid]
  have hdrop' : (supply segments).drop 8 = (supply (remaining 4 segments)).drop 4 := by
    rw [← hdrop, List.drop_drop]
  rw [Request.ofArguments, htake, hdrop, hdrop']
  by_cases henough : 8 ≤ (supply segments).length
  · rw [if_pos henough]
    change Request.carriedOut h ((nameSent (remaining 4 segments)).map _) = _
    cases nameSent (remaining 4 segments) with
    | some name => rfl
    | none => exact (ite_self h).symm
  · have hempty : (supply (remaining 4 segments)).drop 4 = [] := by
      rw [← hdrop', List.drop_eq_nil_iff]
      omega
    have hnone : nameSent (remaining 4 segments) = none := by
      rw [nameSent, hempty, Request.nameOf, if_neg]
      rintro ⟨hsize, hle, _⟩
      rw [List.length_nil] at hle
      omega
    rw [if_neg henough, hnone]
    exact (ite_self h).symm

/-- A name whose terminator did not arrive: the handler reads on behind it. -/
theorem setName_unterminated {strName rest : List UInt8} (hnul : 0 ∉ strName) {cid : TCID}
    {cidLength : Nat} {h wanted : Held} :
    ¬ Clean wanted
      (if (CString.ofBuffer (strName ++ rest)).bytes.length = (strName ++ rest).length then none
      else some ([(4, cidLength),
          ((CString.ofBuffer (strName ++ rest)).bytes.length + 1, strName.length)],
        h.storeName cid (CString.ofBuffer (strName ++ rest)))) := by
  have hlong := CString.length_le_ofBuffer_append hnul rest
  split
  · rintro ⟨_, hcontra, _⟩
    cases hcontra
  · intro hclean
    have huse := (clean_some.mp hclean).2 _ (List.mem_cons_of_mem _ List.mem_cons_self)
    simp only at huse
    omega

/-- A name with its terminator: what matters is which name it is. -/
theorem setName_terminated {strName rest : List UInt8} (hnul : 0 ∈ strName) {cid : TCID}
    {h wanted : Held} :
    Clean wanted
      (if (CString.ofBuffer (strName ++ rest)).bytes.length = (strName ++ rest).length then none
      else some ([(4, 4),
          ((CString.ofBuffer (strName ++ rest)).bytes.length + 1, strName.length)],
        h.storeName cid (CString.ofBuffer (strName ++ rest)))) ↔
      h.storeName cid (CString.ofBuffer strName) = wanted := by
  obtain ⟨hname, hshort⟩ := CString.ofBuffer_append hnul rest
  have hinside : ¬ (CString.ofBuffer strName).bytes.length = (strName ++ rest).length := by
    rw [List.length_append]
    omega
  rw [hname, if_neg hinside, clean_some]
  refine ⟨And.left, fun heq => ⟨heq, ?_⟩⟩
  intro u hu
  rcases List.mem_cons.mp hu with rfl | hu
  · exact Nat.le_refl 4
  · rw [List.mem_singleton.mp hu]
    exact hshort

/-- Which names the bytes must encode for the name that arrived to be theirs, in
every state. -/
theorem storeName_wanted_iff {cid : TCID} (hmin : ¬ cid < tcidGuestMin) {strName : CString}
    (hshort : strName.bytes.length ≤ maxSizeName) (sent : Option CString) :
    (∀ h : Held, h.storeName cid strName =
        match sent with
        | some name => h.storeName cid name
        | none => h) ↔
      ∃ name, sent = some name ∧ name.resize maxSizeName = strName := by
  have hok : cid = 0 ∨ tcidGuestMin ≤ cid := Or.inr (UInt32.not_lt.mp hmin)
  have hnames : ∀ (name' : CString) (hlen : name'.bytes.length ≤ maxSizeName) (name : CString),
      (((Held.knowing ⟨CCoordinate.zero, cid, name', hok, hlen⟩).storeName cid name).registry
        false).stored.map CInfoWifi.name = [name.resize maxSizeName] := by
    intro name' hlen name
    exact Held.storeName_knowing ⟨CCoordinate.zero, cid, name', hok, hlen⟩ name
  constructor
  · intro hall
    cases sent with
    | some name =>
      have heq := congrArg (fun h => (h.registry false).stored.map CInfoWifi.name)
        (hall (Held.knowing ⟨CCoordinate.zero, cid, CString.empty, hok, Nat.zero_le _⟩))
      have hresized := (hnames _ _ strName).symm.trans (heq.trans (hnames _ _ name))
      rw [CString.resize_of_length_le hshort] at hresized
      exact ⟨name, rfl, (List.cons.inj hresized).1.symm⟩
    | none =>
      -- a record with another name would change
      exfalso
      have hother : ∃ name' : CString, name'.bytes.length ≤ maxSizeName ∧ name' ≠ strName := by
        by_cases hempty : strName = CString.empty
        · refine ⟨⟨[1], by decide⟩, by decide, ?_⟩
          rw [hempty]
          decide
        · exact ⟨CString.empty, Nat.zero_le _, fun h => hempty h.symm⟩
      obtain ⟨name', hlen, hne⟩ := hother
      have heq := congrArg (fun h => (h.registry false).stored.map CInfoWifi.name)
        (hall (Held.knowing ⟨CCoordinate.zero, cid, name', hok, hlen⟩))
      have hresized := (hnames _ _ strName).symm.trans heq
      rw [CString.resize_of_length_le hshort] at hresized
      exact hne (List.cons.inj hresized).1.symm
  · rintro ⟨name, rfl, rfl⟩ h
    exact h.storeName_resize cid name

theorem setName_handled_iff :
    ArgumentsHandled .torderSetName segments ↔ ArgumentsIntact .torderSetName segments := by
  have hlen := arriving_length_le 4 segments
  have hshort : ∀ {strName : List UInt8}, 0 ∈ strName → strName.length ≤ maxSizeName + 1 →
      (CString.ofBuffer strName).bytes.length ≤ maxSizeName := by
    intro strName hnul hle
    have hlt := (CString.ofBuffer_append hnul []).2
    omega
  have hlen' := arriving_length_le (maxSizeName + 1) (remaining 4 (remaining 4 segments))
  by_cases hread : arriving 4 segments = [] ∨ arriving 4 (remaining 4 segments) = [] ∨
      arriving (maxSizeName + 1) (remaining 4 (remaining 4 segments)) = []
  · refine ⟨fun _ => ?_, fun _ stack h => ?_⟩
    · rcases hread with hnil | hnil | hnil
      · exact Or.inl hnil
      · exact Or.inr (Or.inl hnil)
      · exact Or.inr (Or.inr (Or.inl hnil))
    · simp only [handled, if_pos hread,
        ofArguments_setName_of_length_le (supply_length_of_third_nil hread)]
      exact clean_none h
  constructor
  · intro hall
    have hwhole : (arriving 4 segments).length = 4 := by
      have hfirst := hall (fun _ _ => 0) (Held.knowing CInfoWifi.default)
      simp only [handled, if_neg hread] at hfirst
      split at hfirst
      · exact Nat.le_antisymm hlen ((clean_some.mp hfirst).2 _ List.mem_cons_self)
      · split at hfirst
        · obtain ⟨_, hcontra, _⟩ := hfirst
          cases hcontra
        · exact Nat.le_antisymm hlen ((clean_some.mp hfirst).2 _ List.mem_cons_self)
    refine Or.inr (Or.inr (Or.inr ⟨hwhole, ?_⟩))
    by_cases hmin : Request.cidOf (arriving 4 segments) < tcidGuestMin
    · exact Or.inl hmin
    · have hclean := fun h => hall (fun _ _ => 0) h
      simp only [carriedOut_setName hwhole, handled, if_neg hread, fill_toCID _ _ hwhole,
        if_neg hmin] at hclean
      by_cases hnul : 0 ∈ arriving (maxSizeName + 1) (remaining 4 (remaining 4 segments))
      · refine Or.inr ⟨hnul, (storeName_wanted_iff hmin (hshort hnul hlen') _).mp fun h => ?_⟩
        have hcleanh := hclean h
        rw [hwhole] at hcleanh
        exact (setName_terminated hnul).mp hcleanh
      · exact absurd (hclean (Held.knowing CInfoWifi.default)) (setName_unterminated hnul)
  · rintro (hcontra | hcontra | hcontra | ⟨hwhole, hrest⟩)
    · exact absurd (Or.inl hcontra) hread
    · exact absurd (Or.inr (Or.inl hcontra)) hread
    · exact absurd (Or.inr (Or.inr hcontra)) hread
    intro stack h
    rw [carriedOut_setName hwhole]
    simp only [handled, if_neg hread, fill_toCID _ _ hwhole]
    by_cases hmin : Request.cidOf (arriving 4 segments) < tcidGuestMin
    · rw [if_pos hmin, if_pos hmin]
      exact clean_some.mpr ⟨rfl, by simp [hwhole]⟩
    · obtain ⟨hnul, hname⟩ := hrest.resolve_left hmin
      rw [if_neg hmin, if_neg hmin, hwhole]
      exact (setName_terminated hnul).mpr
        ((storeName_wanted_iff hmin (hshort hnul hlen') _).mpr hname h)

/-- Each order is handled in every state exactly when its arguments arrive intact. -/
theorem handled_iff (order : TOrder) :
    ArgumentsHandled order segments ↔ ArgumentsIntact order segments := by
  cases order with
  | torderChangeCoordinate => exact changeCoordinate_handled_iff
  | torderSetName => exact setName_handled_iff
  | torderPacketLoss => exact packetLoss_handled_iff
  | torderSetScale => exact setScale_handled_iff
  | torderDistanceBetweenCid => exact distance_handled_iff
  | _ => exact ⟨fun _ => trivial,
      fun _ _ h => clean_some.mpr ⟨rfl, fun _ hu => absurd hu List.not_mem_nil⟩⟩

end Orders

/-! ## One ReceiveOrder -/

namespace Server

/-- A server without a control client that holds `h`. -/
def holding (h : Held) : Server :=
  { init Setup.tcp with
    wifiServer := (h.registry false).server
    wifiServerSPY := (h.registry true).server
    globals := { (init Setup.tcp).globals with
      canLostPackets := h.canLostPackets
      scale := h.scale } }

theorem holding_holds (h : Held) : (holding h).Holds h := by
  refine ⟨?_, rfl, rfl⟩
  intro b
  cases b <;> rfl

end Server

/-- In every state one `ReceiveOrder` over a connection that delivers `segments`
has exactly the effect of the complete order these bytes encode, none when they
encode no complete one, and looks at no byte that was not received. -/
def OrderExact (segments : List (List UInt8)) : Prop :=
  ∀ (medium : Medium) (stack : Stack) (d : TDescriptor) (room : List Nat) (s : Server) (h : Held),
    s.Holds h → s.ctrlSockets = [] →
      ∃ s' uses, s.receiveOrder medium stack ⟨d, segments, room⟩ = some s' ∧
        s'.Holds (Request.carriedOut h (Request.decode (supply segments))) ∧
        usesOf s'.kernel.log = usesOf s.kernel.log ++ uses ∧ ∀ u ∈ uses, u.1 ≤ u.2

variable {segments : List (List UInt8)}

theorem orderExact_iff_clean : OrderExact segments ↔ ∀ stack h,
    Clean (Request.carriedOut h (Request.decode (supply segments)))
      (handledOrder stack h segments) := by
  constructor
  · intro hexact stack h
    obtain ⟨s', uses, heq, hholds, huses, hle⟩ := hexact Medium.uniform stack 0 []
      (Server.holding h) h (Server.holding_holds h) rfl
    have hyields := Server.receiveOrder_yields (Server.holding_holds h) rfl Medium.uniform stack
      ⟨0, segments, []⟩
    cases hhandled : handledOrder stack h segments with
    | none =>
      rw [hhandled] at hyields
      have hnone : (Server.holding h).receiveOrder Medium.uniform stack ⟨0, segments, []⟩ = none :=
        hyields
      rw [hnone] at heq
      cases heq
    | some r =>
      rw [hhandled] at hyields
      obtain ⟨s'', heq', hholds', _, huses'⟩ := hyields
      rw [heq] at heq'
      cases heq'
      refine clean_some.mpr ⟨hholds'.unique hholds, ?_⟩
      rw [List.append_cancel_left (huses'.symm.trans huses)]
      exact hle
  · intro hclean medium stack d room s h hs hctrl
    obtain ⟨uses, hhandled, hle⟩ := hclean stack h
    have hyields := Server.receiveOrder_yields hs hctrl medium stack ⟨d, segments, room⟩
    rw [hhandled] at hyields
    obtain ⟨s', heq, hholds, _, huses⟩ := hyields
    exact ⟨s', uses, heq, hholds, huses, hle⟩

theorem clean_iff_intact : (∀ stack h,
    Clean (Request.carriedOut h (Request.decode (supply segments)))
      (handledOrder stack h segments)) ↔
      OrderIntact segments := by
  have hlen := arriving_length_le 4 segments
  by_cases hcode : arriving 4 segments = []
  · refine ⟨fun _ => Or.inl hcode, fun _ stack h => ?_⟩
    rw [handledOrder, if_pos hcode, supply_of_arriving_nil (Nat.succ_pos 3) hcode]
    exact clean_none h
  have hhandled : ∀ stack h, handledOrder stack h segments =
      (handled stack h (TOrder.ofCode ((Var.uninitialised stack .order 4).fill
        (arriving 4 segments)).toNat) (remaining 4 segments)).map
          fun r => ((4, (arriving 4 segments).length) :: r.1, r.2) := fun stack h => if_neg hcode
  by_cases hwhole : (arriving 4 segments).length = 4
  · have hdecode : Request.decode (supply segments) =
        Request.ofArguments (TOrder.ofCode (value (arriving 4 segments)))
          (supply (remaining 4 segments)) := by
      have hsupply := supply_arriving hcode
      have henough : 4 ≤ (supply segments).length := by
        rw [hsupply, List.length_append]
        omega
      rw [Request.decode, if_pos henough, hsupply, List.take_left' hwhole, List.drop_left' hwhole]
    have horder : ∀ stack, ((Var.uninitialised stack .order 4).fill (arriving 4 segments)).toNat =
        value (arriving 4 segments) := by
      intro stack
      rw [Var.toNat, fill_whole (by rw [hwhole, Var.uninitialised_length])]
    have hmap : ∀ (wanted : Held) (r : Option (List (Nat × Nat) × Held)),
        Clean wanted (r.map fun r => ((4, 4) :: r.1, r.2)) ↔ Clean wanted r := by
      intro wanted r
      cases r with
      | none => exact Iff.rfl
      | some r =>
        rw [Option.map_some, clean_some, clean_some, List.forall_mem_cons]
        exact and_congr_right fun _ => ⟨And.right, fun h => ⟨Nat.le_refl 4, h⟩⟩
    simp only [hhandled, hdecode, horder, hwhole, hmap]
    rw [OrderIntact, ← handled_iff]
    exact ⟨fun h => Or.inr ⟨hwhole, h⟩, fun h => (h.resolve_left hcode).2⟩
  · refine ⟨fun hall => ?_, fun hintact => ?_⟩
    · have hclean := hall (fun _ _ => 0) (Held.knowing CInfoWifi.default)
      rw [hhandled] at hclean
      obtain ⟨uses, heq, hle⟩ := hclean
      obtain ⟨r, _, hr⟩ := Option.map_eq_some_iff.mp heq
      obtain ⟨rfl, _⟩ := Prod.mk.inj hr
      exact absurd (Nat.le_antisymm hlen (hle _ List.mem_cons_self)) hwhole
    · exact absurd (hintact.resolve_left hcode).1 hwhole

/-- `ReceiveOrder` is exact for a connection exactly when its order arrives intact. -/
theorem order_exact_iff (segments : List (List UInt8)) :
    OrderExact segments ↔ OrderIntact segments :=
  orderExact_iff_clean.trans clean_iff_intact

/-- The four bytes of a CID that arrive in two pieces: the order changes the
record of a CID that nobody sent. -/
theorem order_exact_fails :
    ¬ OrderExact [[3, 0, 0, 0], [0xAC, 0x12], [0, 0], [1, 0, 0, 0, 2, 0, 0, 0, 3, 0, 0, 0]] := by
  intro hexact
  obtain ⟨s', uses, heq, hholds, _⟩ := hexact Medium.uniform (fun _ _ => 0xFF) 9 []
    (Server.holding (Held.knowing CInfoWifi.default)) _ (Server.holding_holds _) rfl
  have hstored : ((Server.holding (Held.knowing CInfoWifi.default)).receiveOrder Medium.uniform
      (fun _ _ => 0xFF) ⟨9, [[3, 0, 0, 0], [0xAC, 0x12], [0, 0],
        [1, 0, 0, 0, 2, 0, 0, 0, 3, 0, 0, 0]], []⟩).map
      (fun s => s.wifiServer.infoWifisDeconnected.map CInfoWifi.cid) = some [0, 0xFFFF12AC] := by
    decide +kernel
  have hwifi : s'.wifiServer = _ := hholds.views false
  rw [heq, Option.map_some, hwifi] at hstored
  exact absurd hstored (by decide +kernel)

end Vwifi
