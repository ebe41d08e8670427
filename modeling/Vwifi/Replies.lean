import Vwifi.CtrlOrders

/-!
# The replies to DISTANCE and SHOW

`DistanceBetweenCID` and the first half of `AskShow` read back what the server answers. A
CID that the server does not know is a reply of its own, and it is not followed by a
distance.
-/

namespace Vwifi

set_option autoImplicit false

open LittleEndian Segmented

section Reading

variable {stack : ReplyStack}

theorem readReply_whole {l : ReplyLocal} {n : Nat} {bytes : List UInt8} {inbox : List (List UInt8)}
    (hn : bytes.length = n) (hpos : 0 < n) (h : (deliver n inbox).1 = bytes) :
    readReply (stack.uninitialised l n) inbox = (some ⟨bytes, n⟩, (deliver n inbox).2) := by
  have hlen : (stack.uninitialised l n).bytes.length = n := by
    rw [ReplyStack.uninitialised, List.length_map, List.length_range]
  have hne : bytes ≠ [] := List.ne_nil_of_length_pos (hn ▸ hpos)
  have hdrop : (stack.uninitialised l n).bytes.drop n = [] :=
    List.drop_of_length_le (Nat.le_of_eq hlen)
  simp only [readReply, hlen, h, if_neg hne, hn, hdrop, List.append_nil]

end Reading

/-! ## DISTANCE -/

/-- What is to be displayed for two CIDs: of two that the server does not know, the first
is named. -/
def Held.distanceBetween (h : Held) (medium : Medium) (cid1 cid2 : TCID) : AskedDistance :=
  match h.place cid1 with
  | none => .unknownCid1
  | some coo1 =>
    match h.place cid2 with
    | none => .unknownCid2
    | some coo2 => .distance (coo1.distanceWith medium h.scale coo2)

/-- The fields of a reply of `SendDistance`. -/
def AskedDistance.fields : AskedDistance → List (List UInt8)
  | .failed => []
  | .unknownCid1 => [Server.unknownCid1]
  | .unknownCid2 => [Server.unknownCid2]
  | .distance metres => [image 4 0, image 8 metres.toNat]

theorem Held.distanceBetween_fields (h : Held) (medium : Medium) (cid1 cid2 : TCID) :
    (h.distanceBetween medium cid1 cid2).fields = h.distanceFields medium cid1 cid2 := by
  rw [distanceBetween, distanceFields]
  cases h.place cid1 with
  | none => rfl
  | some coo1 =>
    cases h.place cid2 with
    | none => rfl
    | some coo2 => rfl

/-- The program displays a reply that arrives whole. -/
theorem askDistance_fields (stack : ReplyStack) {asked : AskedDistance}
    {segments : List (List UInt8)} (h : ArriveWhole asked.fields segments) :
    askDistance stack segments = asked := by
  cases asked with
  | failed =>
    rw [show segments = [] from h]
    rfl
  | unknownCid1 =>
    obtain ⟨hfirst, _⟩ := h
    have hcode := @readReply_whole stack .codeError 4 _ _ (image_length 4 _) (by decide) hfirst
    rw [askDistance, hcode]
    rfl
  | unknownCid2 =>
    obtain ⟨hfirst, _⟩ := h
    have hcode := @readReply_whole stack .codeError 4 _ _ (image_length 4 _) (by decide) hfirst
    rw [askDistance, hcode]
    rfl
  | distance metres =>
    obtain ⟨hfirst, hsecond, _⟩ := h
    rw [image_length] at hfirst hsecond
    rw [image_length] at hsecond
    have hlt : metres.toNat < 256 ^ 8 := metres.toNat_lt
    have hcode := @readReply_whole stack .codeError 4 _ _ (image_length 4 0) (by decide) hfirst
    have hdistance := @readReply_whole stack .distance 8 _ _ (image_length 8 _) (by decide) hsecond
    have hzero : Var.toInt ⟨image 4 0, 4⟩ = 0 := by decide
    rw [askDistance, hcode]
    dsimp only
    rw [hzero, if_neg (by decide), if_neg (by decide), hdistance]
    dsimp only
    rw [Var.toNat, value_image_of_lt hlt, UInt64.ofNat_toNat]

section Displayed

variable {s s' : Server} {h : Held} {medium : Medium} {stack : Stack} {d : TDescriptor}
  {room : List Nat} {segments reply : List (List UInt8)}

/-- The answer to a DISTANCE order whose fields arrive whole is displayed, when its
fields arrive whole: the distance of the places the server holds, or which CID it does not
know. -/
theorem distance_displayed {cid1 cid2 : TCID} (hs : s.Holds h) (hctrl : s.ctrlSockets = [])
    (hwhole : ArriveWhole (Ctrl.distanceFields cid1 cid2) segments)
    (heq : s.receiveOrder medium stack ⟨d, segments, room⟩ = some s')
    (htaken : ∀ a ∈ s'.kernel.log.drop s.kernel.log.length, a.isWhole = true)
    (hreply : ArriveWhole (sends d (s'.kernel.log.drop s.kernel.log.length)) reply)
    (askStack : ReplyStack) :
    askDistance askStack reply = h.distanceBetween medium cid1 cid2 := by
  obtain ⟨s'', heq', _, htells⟩ := (Ctrl.carries_distance cid1 cid2).obeyed segments hwhole medium
    stack d room s h hs hctrl
  obtain rfl : s' = s'' := Option.some.inj (heq.symm.trans heq')
  rw [htells.sends_eq htaken, Request.answer, ← h.distanceBetween_fields] at hreply
  exact askDistance_fields askStack hreply

/-- A server that knows one guest, of the CID 10. -/
def knowsTen : Held :=
  Held.knowing ⟨⟨1, 2, 3⟩, 10, CString.empty, by decide, by decide⟩

theorem distance_displayed_unknown :
    ∃ s', (Server.holding knowsTen).receiveOrder Medium.uniform (fun _ _ => 0)
        ⟨9, Ctrl.distanceFields 10 11, [4]⟩ = some s' ∧
      askDistance (fun _ _ => 0) [Server.unknownCid2] = .unknownCid2 := by
  have hlog : ((Server.holding knowsTen).receiveOrder Medium.uniform (fun _ _ => 0)
      ⟨9, Ctrl.distanceFields 10 11, [4]⟩).map (fun s => s.kernel.log) =
      some [.accept 9, .recv 9 4 4, .use 4 4, .recv 9 4 4, .recv 9 4 4, .use 4 4, .use 4 4,
        .send 9 Server.unknownCid2 4, .close 9] := by
    decide +kernel
  obtain ⟨s', heq, hs'⟩ := Option.map_eq_some_iff.mp hlog
  have hstart : (Server.holding knowsTen).kernel.log.length = 0 := rfl
  refine ⟨s', heq, ?_⟩
  refine @distance_displayed _ s' knowsTen Medium.uniform (fun _ _ => 0) 9 [4] _
    [Server.unknownCid2] 10 11 (Server.holding_holds _) rfl (by decide +kernel) heq ?_ ?_ _
  · rw [hs', hstart]
    decide
  · rw [hs', hstart]
    decide +kernel

end Displayed

/-! ## SHOW -/

/-- What is to be displayed of a server. -/
def Held.shown (h : Held) : AskedShow :=
  ⟨some h.canLostPackets, some h.scale, some h.spyIsConnected, 0⟩

/-- The program displays what the server holds, when the reply arrives whole. -/
theorem askShow_fields (stack : ReplyStack) {h : Held} {segments : List (List UInt8)}
    (hwhole : ArriveWhole h.showFields segments) : askShow stack segments = h.shown := by
  obtain ⟨hloss, hscale, hspy, _⟩ := hwhole
  have hone : ∀ b, (Server.boolByte b).length = 1 := fun b => rfl
  rw [hone] at hloss hscale hspy
  rw [image_length] at hscale hspy
  rw [hone] at hspy
  have hlt : h.scale.toNat < 256 ^ 8 := h.scale.toNat_lt
  have hread₁ := @readReply_whole stack .loss 1 _ _ (hone _) (by decide) hloss
  have hread₂ := @readReply_whole stack .scale 8 _ _ (image_length 8 _) (by decide) hscale
  have hread₃ := @readReply_whole stack .spyIsConnected 1 _ _ (hone _) (by decide) hspy
  rw [askShow, hread₁]
  dsimp only
  rw [hread₂]
  dsimp only
  rw [hread₃]
  dsimp only
  rw [Server.boolOf_boolByte, Server.boolOf_boolByte, Var.toNat, value_image_of_lt hlt,
    UInt64.ofNat_toNat]
  rfl

end Vwifi
