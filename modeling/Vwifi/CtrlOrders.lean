import Vwifi.Answers
import Vwifi.Truncation

/-!
# The orders of the control program

Whatever the arguments are, what the program sends over a connection is one complete
order. A server that gets each of its fields whole carries out this order and answers it.
-/

namespace Vwifi

set_option autoImplicit false

open LittleEndian Segmented

namespace Ctrl

/-- The handler of an order whose arguments arrive whole tells the answer of the request. -/
def Served (order : TOrder) (args : Fields) (request : Request) : Prop :=
  ∀ (medium : Medium) (stack : Stack) (d : TDescriptor) (s s' : Server) (h : Held), s.Holds h →
    ArriveWhole args (s.kernel.inbox d) → s.serve medium stack d order = some s' →
      Server.Tells d (request.answer medium s.ports h) s s'

/-- In every state one `ReceiveOrder` over a connection that brings the fields whole has
the effect of the request, and its answer is sent back. -/
def Obeyed (fields : Fields) (request : Request) : Prop :=
  ∀ (segments : List (List UInt8)), ArriveWhole fields segments →
    ∀ (medium : Medium) (stack : Stack) (d : TDescriptor) (room : List Nat) (s : Server) (h : Held),
      s.Holds h → s.ctrlSockets = [] →
        ∃ s', s.receiveOrder medium stack ⟨d, segments, room⟩ = some s' ∧
          s'.Holds (request.effect h) ∧ Server.Tells d (request.answer medium s.ports h) s s'

/-- Together the fields are the bytes of the request, and the order is intact and
answered when each of them arrives whole. -/
structure Carries (fields : Fields) (request : Request) : Prop where
  nonempty : ∀ field ∈ fields, field ≠ []
  decodes : Request.decode fields.flatten = some request
  intact : ∀ {segments}, ArriveWhole fields segments → OrderIntact segments
  served : ∃ order args, fields = orderField order :: args ∧ Served order args request

theorem Carries.obeyed {fields : Fields} {request : Request} (h : Carries fields request) :
    Obeyed fields request := by
  intro segments hwhole medium stack d room s held hs hctrl
  have hexact := orderExact_iff_clean.mpr (clean_iff_intact.mpr (h.intact hwhole))
  obtain ⟨s', uses, heq, hholds, _⟩ := hexact medium stack d room s held hs hctrl
  rw [supply_of_arriveWhole h.nonempty hwhole, h.decodes] at hholds
  refine ⟨s', heq, hholds, ?_⟩
  obtain ⟨order, args, rfl, hserved⟩ := h.served
  apply Server.receiveOrder_tells hs hctrl hwhole _ heq
  intro s₁ s₂ hs₁ hports hargs hserve
  rw [← hports]
  exact hserved medium stack d s₁ s₂ held hs₁ hargs hserve

/-! ## The order and its arguments -/

section Arguments

variable {order : TOrder} {args : Fields} {request : Request}

theorem decode_order (bytes : List UInt8) :
    Request.decode (orderField order ++ bytes) = Request.ofArguments order bytes := by
  have hlen := orderField_length order
  have henough : 4 ≤ (orderField order ++ bytes).length := by
    rw [List.length_append]
    omega
  rw [Request.decode, if_pos henough, List.take_left' hlen, List.drop_left' hlen,
    orderOf_orderField]

/-- The order itself is the same for all requests, what differs are the arguments. -/
theorem carries_of_arguments (hne : ∀ field ∈ args, field ≠ [])
    (hrequest : Request.ofArguments order args.flatten = some request)
    (hintact : ∀ segments, ArriveWhole args segments → ArgumentsIntact order segments)
    (hserved : Served order args request) : Carries (orderField order :: args) request := by
  have hlen := orderField_length order
  constructor
  · intro field hfield
    rcases List.mem_cons.mp hfield with rfl | hmem
    · exact image_ne_nil (by decide)
    · exact hne field hmem
  · rw [List.flatten_cons, decode_order, hrequest]
  · intro segments hwhole
    obtain ⟨hfield, hrest⟩ := hwhole
    rw [hlen] at hfield hrest
    have harriving : arriving 4 segments = orderField order := hfield
    refine Or.inr ⟨by rw [harriving, hlen], ?_⟩
    rw [harriving, orderOf_orderField]
    exact hintact _ hrest
  · exact ⟨order, args, rfl, hserved⟩

end Arguments

/-! ## The orders without arguments -/

theorem carries_alone {order : TOrder} {request : Request}
    (hrequest : Request.ofArguments order [] = some request)
    (hintact : ∀ segments, ArgumentsIntact order segments) (hserved : Served order [] request) :
    Carries [orderField order] request :=
  carries_of_arguments (fun _ h => absurd h List.not_mem_nil) hrequest
    (fun segments _ => hintact segments) hserved

theorem carries_list : Carries [orderField .torderList] (.question .torderList) := by
  refine @carries_alone .torderList _ rfl (fun _ => trivial) ?_
  intro medium stack d s s' h hs _ hserve
  have hsend : s.sendList d = some s' := hserve
  rw [hs.sendList, Option.some.injEq] at hsend
  rw [← hsend]
  exact Server.sendAll_tells d _ s

theorem carries_show : Carries [orderField .torderShow] (.question .torderShow) := by
  refine @carries_alone .torderShow _ rfl (fun _ => trivial) ?_
  intro medium stack d s s' h hs _ hserve
  have hsend : s.sendShow d = s' := Option.some.inj hserve
  rw [← hsend, hs.sendShow]
  exact Server.sendAll_tells d _ s

theorem carries_status : Carries [orderField .torderStatus] (.question .torderStatus) := by
  refine @carries_alone .torderStatus _ rfl (fun _ => trivial) ?_
  intro medium stack d s s' h hs _ hserve
  have hsend : s.sendStatus d = s' := Option.some.inj hserve
  rw [← hsend, hs.sendStatus]
  exact Server.sendAll_tells d _ s

theorem carries_close : Carries [orderField .torderCloseAllClient] .closeAllClient := by
  refine @carries_alone .torderCloseAllClient _ rfl (fun _ => trivial) ?_
  intro medium stack d s s' h hs _ hserve
  exact Server.closeAllClient_tells hs hserve

/-! ## The orders with arguments -/

theorem carries_coordinate (cid : TCID) (coo : CCoordinate) :
    Carries (coordinateFields cid coo) (.changeCoordinate cid coo) := by
  have hcid := cidField_length cid
  have hcoo := CCoordinate.bytes_length coo
  apply carries_of_arguments
  · intro field hfield
    rcases List.mem_cons.mp hfield with rfl | hmem
    · exact image_ne_nil (by decide)
    · rw [List.mem_singleton.mp hmem, ← List.length_pos_iff, hcoo]
      decide
  · have henough : 16 ≤ (cidField cid ++ coo.bytes).length := by
      rw [List.length_append]
      omega
    simp only [List.flatten_cons, List.flatten_nil, List.append_nil]
    rw [Request.ofArguments, if_pos henough, List.take_left' hcid, List.drop_left' hcid,
      List.take_of_length_le (Nat.le_of_eq hcoo), cidOf_cidField, CCoordinate.ofBytes_bytes]
  · intro segments hwhole
    obtain ⟨hfirst, hsecond, _⟩ := hwhole
    rw [hcid] at hfirst hsecond
    rw [hcoo] at hsecond
    have hfirst' : arriving 4 segments = cidField cid := hfirst
    have hsecond' : arriving 12 (remaining 4 segments) = coo.bytes := hsecond
    exact Or.inr (Or.inr ⟨by rw [hfirst', hcid], Or.inr (by rw [hsecond', hcoo])⟩)
  · intro medium stack d s s' h _ _ hserve
    exact Server.changeCoordinate_tells hserve

theorem carries_distance (cid1 cid2 : TCID) :
    Carries (distanceFields cid1 cid2) (.distanceBetweenCid cid1 cid2) := by
  have hcid1 := cidField_length cid1
  have hcid2 := cidField_length cid2
  apply carries_of_arguments
  · intro field hfield
    rcases List.mem_cons.mp hfield with rfl | hmem
    · exact image_ne_nil (by decide)
    · rw [List.mem_singleton.mp hmem]
      exact image_ne_nil (by decide)
  · have henough : 8 ≤ (cidField cid1 ++ cidField cid2).length := by
      rw [List.length_append]
      omega
    simp only [List.flatten_cons, List.flatten_nil, List.append_nil]
    rw [Request.ofArguments, if_pos henough, List.take_left' hcid1, List.drop_left' hcid1,
      List.take_of_length_le (Nat.le_of_eq hcid2), cidOf_cidField, cidOf_cidField]
  · intro segments hwhole
    obtain ⟨hfirst, hsecond, _⟩ := hwhole
    rw [hcid1] at hfirst hsecond
    rw [hcid2] at hsecond
    have hfirst' : arriving 4 segments = cidField cid1 := hfirst
    have hsecond' : arriving 4 (remaining 4 segments) = cidField cid2 := hsecond
    exact Or.inr (Or.inr ⟨by rw [hfirst', hcid1],
      Or.inr (Or.inr (by rw [hsecond', hcid2]))⟩)
  · intro medium stack d s s' h hs hargs hserve
    have hdistance : s.sendDistance medium stack d = s' := Option.some.inj hserve
    rw [← hdistance]
    exact Server.sendDistance_whole hs medium stack hargs

/-- An order with one argument of a fixed size. -/
theorem carries_single {order : TOrder} {width n : Nat} {request : Request} (hwidth : 0 < width)
    (hrequest : Request.ofArguments order (image width n) = some request)
    (hintact : ∀ segments, (arriving width segments).length = width →
      ArgumentsIntact order segments) (hserved : Served order [image width n] request) :
    Carries [orderField order, image width n] request := by
  apply carries_of_arguments
  · intro field hfield
    rw [List.mem_singleton.mp hfield]
    exact image_ne_nil hwidth
  · simp only [List.flatten_cons, List.flatten_nil, List.append_nil]
    exact hrequest
  · intro segments hwhole
    obtain ⟨hfield, _⟩ := hwhole
    rw [image_length] at hfield
    apply hintact
    rw [arriving, hfield, image_length]
  · exact hserved

theorem carries_loss {n : Nat} (h : n < 256 ^ 4) : Carries (lossFields n) (.packetLoss n) := by
  apply carries_single (by decide)
  · have hlen := image_length 4 n
    rw [Request.ofArguments, if_pos (Nat.le_of_eq hlen.symm),
      List.take_of_length_le (Nat.le_of_eq hlen), value_image_of_lt h]
  · intro segments hlen
    exact Or.inr hlen
  · intro medium stack d s s' h _ _ hserve
    exact Server.changePacketLoss_tells hserve

theorem carries_scale (scale : TScale) : Carries (scaleFields scale) (.setScale scale) := by
  apply carries_single (by decide)
  · have hlen := image_length 8 scale.toNat
    have hlt : scale.toNat < 256 ^ 8 := scale.toNat_lt
    rw [Request.ofArguments, if_pos (Nat.le_of_eq hlen.symm),
      List.take_of_length_le (Nat.le_of_eq hlen), value_image_of_lt hlt, UInt64.ofNat_toNat]
  · intro segments hlen
    exact Or.inr hlen
  · intro medium stack d s s' h _ _ hserve
    have hscale : s.setScale stack d = s' := Option.some.inj hserve
    rw [← hscale]
    exact Server.setScale_tells stack

/-! ## The name -/

theorem sizeOf_image {n : Nat} (h : n ≤ maxSizeName) : Request.sizeOf (image 4 n) = n := by
  have hmax : maxSizeName = 12 := rfl
  have hlt : n < 256 ^ 4 := by omega
  have hsmall : ∀ m, m ≤ maxSizeName → (UInt32.ofNat m).toInt32.toInt = m := by decide
  rw [Request.sizeOf, value_image_of_lt hlt, hsmall n h]

theorem nameOf_terminated {name : CString} :
    Request.nameOf name.bytes.length (name.bytes ++ [0]) = some name := by
  have hlen : (name.bytes ++ [0]).length = name.bytes.length + 1 := by
    rw [List.length_append, List.length_singleton]
  have htake : (name.bytes ++ [0]).take ((name.bytes.length : Int) + 1).toNat =
      name.bytes ++ [0] := List.take_of_length_le (by omega)
  rw [Request.nameOf, htake, if_pos ⟨by omega, by omega, by simp⟩, CString.ofBuffer_append_nul]

theorem carries_name (cid : TCID) {name : CString} (h : name.bytes.length ≤ maxSizeName) :
    Carries (nameFields cid name) (.setName cid name) := by
  have hcid := cidField_length cid
  have hsize := image_length 4 name.bytes.length
  have hname : (name.bytes ++ [0]).length ≤ maxSizeName + 1 := by
    rw [List.length_append, List.length_singleton]
    omega
  apply carries_of_arguments
  · intro field hfield
    simp only [List.mem_cons, List.not_mem_nil, or_false] at hfield
    rcases hfield with rfl | rfl | rfl
    · exact image_ne_nil (by decide)
    · exact image_ne_nil (by decide)
    · simp
  · simp only [List.flatten_cons, List.flatten_nil, List.append_nil]
    have henough :
        8 ≤ (cidField cid ++ (image 4 name.bytes.length ++ (name.bytes ++ [0]))).length := by
      rw [List.length_append, List.length_append]
      omega
    have hdrop : (cidField cid ++ (image 4 name.bytes.length ++ (name.bytes ++ [0]))).drop 8 =
        name.bytes ++ [0] := by
      rw [← List.append_assoc, List.drop_left' (by rw [List.length_append, hcid, hsize])]
    rw [Request.ofArguments, if_pos henough, hdrop, List.take_left' hcid, List.drop_left' hcid,
      List.take_left' hsize, sizeOf_image h, nameOf_terminated, cidOf_cidField, Option.map_some]
  · intro segments hwhole
    obtain ⟨hfirst, hsecond, hthird⟩ := hwhole
    rw [hcid] at hfirst hsecond hthird
    rw [hsize] at hsecond hthird
    have hfirst' : arriving 4 segments = cidField cid := hfirst
    have hthird' : arriving (maxSizeName + 1) (remaining 4 (remaining 4 segments)) =
        name.bytes ++ [0] := deliver_last hname hthird
    have hsupply : supply (remaining 4 segments) =
        image 4 name.bytes.length ++ (name.bytes ++ [0]) := by
      have hwhole' : ArriveWhole [image 4 name.bytes.length, name.bytes ++ [0]]
          (remaining 4 segments) := ⟨by rw [hsize]; exact hsecond, by rw [hsize]; exact hthird⟩
      rw [supply_of_arriveWhole _ hwhole']
      · simp
      · intro field hfield
        rcases List.mem_cons.mp hfield with rfl | hmem
        · exact image_ne_nil (by decide)
        · rw [List.mem_singleton.mp hmem]
          simp
    have hsent : nameSent (remaining 4 segments) = some name := by
      rw [nameSent, hsupply, List.take_left' hsize, List.drop_left' hsize, sizeOf_image h,
        nameOf_terminated]
    refine Or.inr (Or.inr (Or.inr ⟨by rw [hfirst', hcid], Or.inr ⟨?_, name, hsent, ?_⟩⟩))
    · rw [hthird']
      simp
    · rw [hthird', CString.ofBuffer_append_nul, CString.resize_of_length_le h]
  · intro medium stack d s s' h _ _ hserve
    exact Server.setName_tells hserve

/-! ## What the program lets through -/

/-- The request of an order with the parameters the program lets through. -/
def Sound : Request → Prop
  | .question order => order ≠ .torderNo
  | .distanceBetweenCid cid1 cid2 => ¬ cid1 < tcidGuestMin ∧ ¬ cid2 < tcidGuestMin
  | .changeCoordinate cid _ => ¬ cid < tcidGuestMin
  | .setName cid name => ¬ cid < tcidGuestMin ∧ name.bytes.length ≤ maxSizeName
  | .packetLoss value => value ≤ 1
  | .setScale scale => notPositive scale = false
  | .closeAllClient => True

def CarriesSound (fields : Fields) : Prop := ∃ request, Carries fields request ∧ Sound request

section Sound

variable {args : List CString} {fields : Fields}

theorem guestCid_ok {order integer guest : String} {arg : CString} {cid : TCID}
    (h : guestCid order integer guest arg = .ok cid) : ¬ cid < tcidGuestMin := by
  unfold guestCid at h
  split at h
  · cases h
  · dsimp only at h
    split at h
    · cases h
    · rename_i hmin
      cases h
      exact hmin

theorem changeCoordinate_sound (h : changeCoordinate args = .ok fields) : CarriesSound fields := by
  unfold changeCoordinate at h
  split at h
  · split at h
    · cases h
    · rename_i cid hcid
      repeat' split at h
      · cases h
      · cases h
      · cases h
      · cases h
        exact ⟨_, carries_coordinate _ _, guestCid_ok hcid⟩
  · cases h

theorem setName_sound (h : setName args = .ok fields) : CarriesSound fields := by
  unfold setName at h
  split at h
  · split at h
    · cases h
    · rename_i name _ cid hcid
      cases h
      have hlen : (if maxSizeName < name.bytes.length then name.resize maxSizeName
          else name).bytes.length ≤ maxSizeName := by
        split
        · exact List.length_take_le _ _
        · omega
      exact ⟨_, carries_name _ hlen, guestCid_ok hcid, hlen⟩
  · cases h

theorem changePacketLoss_sound (h : changePacketLoss args = .ok fields) : CarriesSound fields := by
  unfold changePacketLoss at h
  split at h
  · split at h
    · cases h
      exact ⟨_, carries_loss (by decide), Nat.le_refl 1⟩
    · split at h
      · cases h
        exact ⟨_, carries_loss (by decide), Nat.zero_le 1⟩
      · cases h
  · cases h

theorem distanceBetweenCid_sound (h : distanceBetweenCid args = .ok fields) :
    CarriesSound fields := by
  unfold distanceBetweenCid at h
  split at h
  · split at h
    · cases h
    · rename_i hcid1
      split at h
      · cases h
      · rename_i hcid2
        cases h
        exact ⟨_, carries_distance _ _, guestCid_ok hcid1, guestCid_ok hcid2⟩
  · cases h

theorem setScale_sound {round : Rat → TScale} (h : setScale round args = .ok fields) :
    CarriesSound fields := by
  unfold setScale at h
  split at h
  · split at h
    · cases h
    · split at h
      · cases h
      · rename_i hpositive
        cases h
        exact ⟨_, carries_scale _, Bool.eq_false_iff.mpr hpositive⟩
  · cases h

/-- What the program sends over its first connection is an order with parameters it lets
through, and what it may send over a second one, behind a SHOW, is a LIST. -/
def Errand.CarriesSound (errand : Errand) : Prop :=
  ∃ request, Carries errand.fields request ∧ Sound request ∧
    ∀ answer fields, errand.next answer = some fields →
      request = .question .torderShow ∧ Carries fields (.question .torderList)

theorem only_sound (h : Ctrl.CarriesSound fields) : (Errand.only fields).CarriesSound := by
  obtain ⟨request, hcarries, hsound⟩ := h
  exact ⟨request, hcarries, hsound, fun _ _ hnext => nomatch hnext⟩

theorem map_only_sound {r : Except Refusal Fields} {errand : Errand}
    (h : some (r.map Errand.only) = some (.ok errand))
    (hsound : ∀ {fields}, r = .ok fields → Ctrl.CarriesSound fields) : errand.CarriesSound := by
  cases r with
  | error e => cases h
  | ok fields =>
    cases h
    exact only_sound (hsound rfl)

theorem showErrand_sound (stack : ReplyStack) : (showErrand stack).CarriesSound := by
  refine ⟨.question .torderShow, carries_show, (fun h => nomatch h), ?_⟩
  intro answer fields hnext
  rw [showErrand] at hnext
  dsimp only at hnext
  split at hnext
  · cases hnext
    exact ⟨rfl, carries_list⟩
  · cases hnext

theorem dispatch_sound {round : Rat → TScale} {stack : ReplyStack} {order : CString}
    {errand : Errand} (h : dispatch round stack order args = some (.ok errand)) :
    errand.CarriesSound := by
  unfold dispatch at h
  split at h
  · cases h
    exact only_sound ⟨_, carries_list, fun h => nomatch h⟩
  split at h
  · exact map_only_sound h changeCoordinate_sound
  split at h
  · exact map_only_sound h setName_sound
  split at h
  · exact map_only_sound h changePacketLoss_sound
  split at h
  · cases h
    exact showErrand_sound stack
  split at h
  · cases h
    exact only_sound ⟨_, carries_status, fun h => nomatch h⟩
  split at h
  · exact map_only_sound h distanceBetweenCid_sound
  split at h
  · exact map_only_sound h setScale_sound
  split at h
  · cases h
    exact only_sound ⟨_, carries_close, trivial⟩
  · cases h

end Sound

/-- Whatever the program is called with: when it sends something, the fields are one
complete order with parameters it lets through, and the server carries this order out and
answers it. Only behind a SHOW may the program send more: a LIST. -/
theorem sends_sound {round : Rat → TScale} {stack : ReplyStack} {argv : List CString}
    {ip : CString} {port : TPort} {errand : Errand}
    (h : main round stack argv = .sends ip port errand) :
    ∃ request, Sound request ∧ Request.decode errand.fields.flatten = some request ∧
      Obeyed errand.fields request ∧
      ∀ answer fields, errand.next answer = some fields →
        request = .question .torderShow ∧
          Request.decode fields.flatten = some (.question .torderList) ∧
          Obeyed fields (.question .torderList) := by
  unfold main at h
  split at h
  · cases h
  · split at h
    · cases h
    · split at h
      · cases h
      · cases h
      · rename_i hdispatch
        cases h
        obtain ⟨request, hcarries, hsound, hnext⟩ := dispatch_sound hdispatch
        refine ⟨request, hsound, hcarries.decodes, hcarries.obeyed, ?_⟩
        intro answer fields hfields
        obtain ⟨hshow, hlist⟩ := hnext answer fields hfields
        exact ⟨hshow, hlist.decodes, hlist.obeyed⟩

/-- `setname 4294967299 hypervisor-four`: the number is cut to a guest that was not named. -/
theorem sends_sound_setname :
    let errand := Errand.only (nameFields 3 ⟨text "hypervisor-f", by decide⟩)
    ∃ request, Sound request ∧ Request.decode errand.fields.flatten = some request ∧
      Obeyed errand.fields request ∧
      ∀ answer fields, errand.next answer = some fields →
        request = .question .torderShow ∧
          Request.decode fields.flatten = some (.question .torderList) ∧
          Obeyed fields (.question .torderList) :=
  @sends_sound (fun _ => 0) (fun _ _ => 0) [⟨text "setname", by decide⟩,
    ⟨text "4294967299", by decide⟩, ⟨text "hypervisor-four", by decide⟩] defaultAddressIP
    defaultCtrlPort _ (by rfl)

end Ctrl

end Vwifi
