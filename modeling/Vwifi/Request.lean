import Vwifi.Order

/-!
# What the bytes of an order mean

An order with all bytes of its arguments is a `Request`, and a request has an
effect on what the server holds. Nothing here depends on how the bytes arrive.
-/

namespace Vwifi

set_option autoImplicit false

open LittleEndian

/-- All that an order can change. -/
@[ext] structure Held where
  registry : Bool → Registry
  canLostPackets : Bool
  scale : TScale

inductive Request where
  /-- An order without arguments that changes nothing. -/
  | question (order : TOrder)
  | distanceBetweenCid (cid1 cid2 : TCID)
  | changeCoordinate (cid : TCID) (coo : CCoordinate)
  | setName (cid : TCID) (name : CString)
  | packetLoss (value : Nat)
  | setScale (scale : TScale)
  | closeAllClient

def Held.storeCoordinate (h : Held) (cid : TCID) (coo : CCoordinate) : Held :=
  match CInfoWifi.ofCoordinate cid coo with
  | none => h
  | some w =>
    { h with registry := Function.update h.registry false ((h.registry false).storeCoordinate w) }

def Held.storeName (h : Held) (cid : TCID) (name : CString) : Held :=
  { h with registry := Server.renamed h.registry cid name }

namespace Request

def effect (h : Held) : Request → Held
  | question _ => h
  | distanceBetweenCid _ _ => h
  | changeCoordinate cid coo => if cid < tcidGuestMin then h else h.storeCoordinate cid coo
  | setName cid name => if cid < tcidGuestMin then h else h.storeName cid name
  | packetLoss value => { h with canLostPackets := value ≠ 0 }
  | setScale scale => { h with scale := scale }
  | closeAllClient => { h with registry := fun b => (h.registry b).clear }

def cidOf (bytes : List UInt8) : TCID := UInt32.ofNat (value bytes)

/-- `int sizeName` -/
def sizeOf (bytes : List UInt8) : Int := (UInt32.ofNat (value bytes)).toInt32.toInt

/-- The name in its `sizeName + 1` bytes; without a terminator they hold none. -/
def nameOf (sizeName : Int) (bytes : List UInt8) : Option CString :=
  if 0 ≤ sizeName ∧ sizeName + 1 ≤ bytes.length ∧ 0 ∈ bytes.take (sizeName + 1).toNat then
    some (CString.ofBuffer (bytes.take (sizeName + 1).toNat))
  else none

/-- The request an order makes with the bytes behind it, when they are all there. -/
def ofArguments : TOrder → List UInt8 → Option Request
  | .torderChangeCoordinate, bytes =>
    if 16 ≤ bytes.length then
      some (changeCoordinate (cidOf (bytes.take 4))
        (CCoordinate.ofBytes ((bytes.drop 4).take 12)))
    else none
  | .torderSetName, bytes =>
    if 8 ≤ bytes.length then
      (nameOf (sizeOf ((bytes.drop 4).take 4)) (bytes.drop 8)).map (setName (cidOf (bytes.take 4)))
    else none
  | .torderPacketLoss, bytes =>
    if 4 ≤ bytes.length then some (packetLoss (value (bytes.take 4))) else none
  | .torderSetScale, bytes =>
    if 8 ≤ bytes.length then some (setScale (UInt64.ofNat (value (bytes.take 8)))) else none
  | .torderDistanceBetweenCid, bytes =>
    if 8 ≤ bytes.length then
      some (distanceBetweenCid (cidOf (bytes.take 4)) (cidOf ((bytes.drop 4).take 4)))
    else none
  | .torderCloseAllClient, _ => some closeAllClient
  | order, _ => some (question order)

def decode (bytes : List UInt8) : Option Request :=
  if 4 ≤ bytes.length then ofArguments (TOrder.ofCode (value (bytes.take 4))) (bytes.drop 4)
  else none

/-- The effect of a request, and none without one. -/
def carriedOut (h : Held) : Option Request → Held
  | none => h
  | some request => request.effect h

end Request

/-! ## The server and what it holds -/

namespace Registry

theorem server_injective {r q : Registry} (h : r.server = q.server) : r = q := by
  have hentries := congrArg CWifiServer.entries h
  have hcapacity := congrArg CWifiServer.maxClientDeconnected h
  have hstored := congrArg CWifiServer.infoWifisDeconnected h
  rw [server_entries, server_entries] at hentries
  cases r
  cases q
  cases hentries
  cases hcapacity
  cases hstored
  rfl

/-- Whether a record of the CID is found, be it connected or not. -/
def knows (r : Registry) (cid : TCID) : Bool :=
  r.entries.any (·.cid = cid) || r.stored.any (·.cid = cid)

end Registry

namespace Server

structure Holds (s : Server) (h : Held) : Prop where
  views : s.Views h.registry
  canLostPackets : s.globals.canLostPackets = h.canLostPackets
  scale : s.globals.scale = h.scale

theorem Holds.unique {s : Server} {h h' : Held} (hs : s.Holds h) (hs' : s.Holds h') : h = h' := by
  have hregistry : h.registry = h'.registry := by
    funext b
    exact Registry.server_injective ((hs.views b).symm.trans (hs'.views b))
  exact Held.ext hregistry (hs.canLostPackets.symm.trans hs'.canLostPackets)
    (hs.scale.symm.trans hs'.scale)

theorem Holds.storeCoordinate {s : Server} {h : Held} (hs : s.Holds h) {cid : TCID}
    (hmin : ¬ cid < tcidGuestMin) (coo : CCoordinate) :
    ∃ s', s.storeCoordinate cid coo = some s' ∧ s'.Holds (h.storeCoordinate cid coo) ∧
      s'.ctrlSockets = s.ctrlSockets ∧ s'.kernel = s.kernel := by
  obtain ⟨w, hw, hcid, hcoo, _⟩ := ofCoordinate_eq hmin coo
  have heq := storeCoordinate_eq hs.views hw hcid hcoo
  refine ⟨_, heq, ?_, rfl, rfl⟩
  simp only [Held.storeCoordinate, hw]
  exact ⟨views_update hs.views, hs.canLostPackets, hs.scale⟩

theorem Holds.storeName {s : Server} {h : Held} (hs : s.Holds h) (cid : TCID) (name : CString) :
    (s.storeName cid name).Holds (h.storeName cid name) ∧
      (s.storeName cid name).ctrlSockets = s.ctrlSockets ∧
      (s.storeName cid name).kernel = s.kernel := by
  rw [storeName_eq hs.views]
  refine ⟨⟨?_, hs.canLostPackets, hs.scale⟩, rfl, rfl⟩
  intro b
  cases b <;> rfl

theorem Holds.findCoordinate {s : Server} {h : Held} (hs : s.Holds h) (cid : TCID) :
    (s.findCoordinate cid).isSome = (h.registry false).knows cid := by
  have hwifi : s.wifiServer = (h.registry false).server := hs.views false
  simp only [Server.findCoordinate, hwifi, Registry.getReferenceOnInfoWifiByCID_server,
    CWifiServer.getReferenceOnInfoWifiDeconnectedByCID, Registry.server_stored]
  rw [Registry.knows, ← List.findIdx?_isSome, ← List.findIdx?_isSome]
  cases hentry : (h.registry false).entries.findIdx? (·.cid = cid) with
  | some i =>
    obtain ⟨hi, _⟩ := List.findIdx?_eq_some_iff_getElem.mp hentry
    simp only [Registry.getElem?_infoWifis, List.getElem?_eq_getElem hi]
    rfl
  | none =>
    cases hstored : (h.registry false).stored.findIdx? (·.cid = cid) with
    | some i =>
      obtain ⟨hi, _⟩ := List.findIdx?_eq_some_iff_getElem.mp hstored
      simp only [List.getElem?_eq_getElem hi]
      rfl
    | none => rfl

end Server

end Vwifi
