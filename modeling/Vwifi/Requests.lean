import Vwifi.Step
import Vwifi.Truncation

/-!
# The requests of the orders

A handler comes to a request with the bytes that arrive and, where they do not suffice,
with what its variables held before. When the order arrives intact, this is the request
the bytes mean.
-/

namespace Vwifi

set_option autoImplicit false

open Segmented

/-- An iteration in which an order arrives and nothing else happens. -/
def Label.asks (segments : List (List UInt8)) (rounds : Nat) : List Label :=
  [.select (.ready (· = 5) 1), .skip, .skip, .skip, .order ⟨12, segments, []⟩ fun _ _ => 0] ++
    List.replicate rounds .skip

namespace Request

/-- The request a handler comes to, or none when one of its `Read` fails. -/
def asked (stack : Stack) : TOrder → List (List UInt8) → Option Request
  | .torderChangeCoordinate, segments =>
    let cid := arriving 4 segments
    let coo := arriving 12 (remaining 4 segments)
    if cid = [] ∨ coo = [] then none
    else
      some (changeCoordinate ((Var.uninitialised stack .cid 4).fill cid).toCID
        (CCoordinate.ofBytes (Var.fill ⟨CCoordinate.zero.bytes, 0⟩ coo).bytes))
  | .torderSetName, segments =>
    let cid := arriving 4 segments
    let sizeName := arriving 4 (remaining 4 segments)
    let strName := arriving (maxSizeName + 1) (remaining 4 (remaining 4 segments))
    if cid = [] ∨ sizeName = [] ∨ strName = [] then none
    else
      some (setName ((Var.uninitialised stack .cid 4).fill cid).toCID
        (CString.ofBuffer ((Var.uninitialised stack .strName
          (maxSizeName + 1)).fill strName).bytes))
  | .torderPacketLoss, segments =>
    let v := arriving 4 segments
    if v = [] then none else some (packetLoss ((Var.uninitialised stack .value 4).fill v).toNat)
  | .torderSetScale, segments =>
    let newScale := arriving 8 segments
    if newScale = [] then none
    else
      some (setScale (UInt64.ofNat ((Var.uninitialised stack .newScale 8).fill newScale).toNat))
  | .torderCloseAllClient, _ => some closeAllClient
  | order, _ => some (question order)

/-- The request `ReceiveOrder` comes to. -/
def askedOrder (stack : Stack) (segments : List (List UInt8)) : Option Request :=
  let code := arriving 4 segments
  if code = [] then none
  else
    asked stack (TOrder.ofCode ((Var.uninitialised stack .order 4).fill code).toNat)
      (remaining 4 segments)

variable {stack : Stack} {h : Held} {segments : List (List UInt8)} {r : List (Nat × Nat) × Held}

theorem handled_changeCoordinate_asked
    (hr : handled stack h .torderChangeCoordinate segments = some r) :
    r.2 = carriedOut h (asked stack .torderChangeCoordinate segments) := by
  simp only [handled, asked] at hr ⊢
  split
  · rename_i hread
    rw [if_pos hread] at hr
    cases hr
    rfl
  · rename_i hread
    rw [if_neg hread] at hr
    simp only [carriedOut, effect]
    split
    · rename_i hmin
      rw [if_pos hmin] at hr
      cases hr
      rfl
    · rename_i hmin
      rw [if_neg hmin] at hr
      cases hr
      rfl

theorem handled_setName_asked (hr : handled stack h .torderSetName segments = some r) :
    r.2 = carriedOut h (asked stack .torderSetName segments) := by
  simp only [handled, asked] at hr ⊢
  split
  · rename_i hread
    rw [if_pos hread] at hr
    cases hr
    rfl
  · rename_i hread
    rw [if_neg hread] at hr
    simp only [carriedOut, effect]
    split
    · rename_i hmin
      rw [if_pos hmin] at hr
      cases hr
      rfl
    · rename_i hmin
      rw [if_neg hmin] at hr
      split at hr
      · cases hr
      · cases hr
        rfl

/-- A handler carries out the request it comes to. -/
theorem handled_asked {order : TOrder} (hr : handled stack h order segments = some r) :
    r.2 = carriedOut h (asked stack order segments) := by
  cases order with
  | torderChangeCoordinate => exact handled_changeCoordinate_asked hr
  | torderSetName => exact handled_setName_asked hr
  | torderPacketLoss =>
    simp only [handled, asked] at hr ⊢
    split
    · rename_i hread
      rw [if_pos hread] at hr
      cases hr
      rfl
    · rename_i hread
      rw [if_neg hread] at hr
      cases hr
      rfl
  | torderSetScale =>
    simp only [handled, asked] at hr ⊢
    split
    · rename_i hread
      rw [if_pos hread] at hr
      cases hr
      rfl
    · rename_i hread
      rw [if_neg hread] at hr
      cases hr
      rfl
  | torderDistanceBetweenCid =>
    simp only [handled] at hr
    split at hr
    · cases hr
      rfl
    · cases hr
      rfl
  | torderCloseAllClient =>
    cases hr
    rfl
  | torderNo | torderList | torderShow | torderStatus =>
    cases hr
    rfl

theorem handledOrder_asked (hr : handledOrder stack h segments = some r) :
    r.2 = carriedOut h (askedOrder stack segments) := by
  unfold handledOrder at hr
  unfold askedOrder
  dsimp only at hr ⊢
  split
  · rename_i hcode
    rw [if_pos hcode] at hr
    cases hr
    rfl
  · rename_i hcode
    rw [if_neg hcode] at hr
    obtain ⟨r', hr', rfl⟩ := Option.map_eq_some_iff.mp hr
    have hasked := handled_asked hr'
    exact hasked

end Request

/-- `ReceiveOrder` carries out the request it comes to. -/
theorem Server.receiveOrder_asked {s s' : Server} {h : Held} (hs : s.Holds h)
    (hctrl : s.ctrlSockets = []) {medium : Medium} {stack : Stack} {inc : Incoming}
    (heq : s.receiveOrder medium stack inc = some s') :
    s'.Holds (Request.carriedOut h (Request.askedOrder stack inc.inbox)) := by
  have hyields := receiveOrder_yields hs hctrl medium stack inc
  rw [heq] at hyields
  cases hhandled : handledOrder stack h inc.inbox with
  | none =>
    rw [hhandled] at hyields
    cases hyields
  | some r =>
    rw [hhandled] at hyields
    obtain ⟨s'', hsome, hholds, _, _⟩ := hyields
    cases hsome
    rwa [Request.handledOrder_asked hhandled] at hholds

/-- Of an intact order `ReceiveOrder` carries out the request its bytes mean. -/
theorem Server.receiveOrder_intact {s s' : Server} {h : Held} (hs : s.Holds h)
    (hctrl : s.ctrlSockets = []) {medium : Medium} {stack : Stack} {inc : Incoming}
    (hintact : OrderIntact inc.inbox) (heq : s.receiveOrder medium stack inc = some s') :
    s'.Holds (Request.carriedOut h (Request.decode (supply inc.inbox))) := by
  have hexact := orderExact_iff_clean.mpr (clean_iff_intact.mpr hintact)
  obtain ⟨s'', uses, heq', hholds, _⟩ := hexact medium stack inc.descriptor inc.room s h hs hctrl
  obtain rfl : s' = s'' := Option.some.inj (heq.symm.trans heq')
  exact hholds

namespace Config

/-- The request that a step of the loop comes to. -/
def requests (c : Config) (l : Label) : List Request :=
  match c.phase, l with
  | .order, .order inc stack => (Request.askedOrder stack inc.inbox).toList
  | _, _ => []

/-- The request that the order of a step means. -/
def orders (c : Config) (l : Label) : List Request :=
  match c.phase, l with
  | .order, .order inc _ => (Request.decode (supply inc.inbox)).toList
  | _, _ => []

variable {medium : Medium} {c c' : Config} {v v' : Bool → Registry} {inc : Incoming}
  {stack : Stack}

/-- What a step that receives an order makes of the registries. -/
theorem order_step_registry {h : Held} (hphase : c.phase = .order)
    (hstep : step medium c (.order inc stack) = some c') (hv' : c'.server.Views v')
    (hreceive : ∀ s', c.server.receiveOrder medium stack inc = some s' → s'.Holds h) :
    v' = h.registry := by
  simp only [step, hphase] at hstep
  split at hstep
  · obtain ⟨s', hs', hnext⟩ := Option.bind_eq_some_iff.mp hstep
    cases hnext
    funext b
    exact Registry.server_injective ((hv' b).symm.trans ((hreceive s' hs').views b))
  · cases hstep

theorem Sees.holds (hv : c.Sees v) :
    c.server.Holds ⟨v, c.server.globals.canLostPackets, c.server.globals.scale⟩ :=
  ⟨hv.views, rfl, rfl⟩

theorem order_step_asked (hv : c.Sees v) (hphase : c.phase = .order)
    (hstep : step medium c (.order inc stack) = some c') (hv' : c'.server.Views v') :
    v' = (Request.carriedOut ⟨v, c.server.globals.canLostPackets, c.server.globals.scale⟩
      (Request.askedOrder stack inc.inbox)).registry :=
  order_step_registry hphase hstep hv' fun _ hs' =>
    Server.receiveOrder_asked hv.holds hv.ctrlSockets hs'

theorem order_step_intact (hv : c.Sees v) (hphase : c.phase = .order)
    (hintact : OrderIntact inc.inbox)
    (hstep : step medium c (.order inc stack) = some c') (hv' : c'.server.Views v') :
    v' = (Request.carriedOut ⟨v, c.server.globals.canLostPackets, c.server.globals.scale⟩
      (Request.decode (supply inc.inbox))).registry :=
  order_step_registry hphase hstep hv' fun _ hs' =>
    Server.receiveOrder_intact hv.holds hv.ctrlSockets hintact hs'

end Config

end Vwifi
