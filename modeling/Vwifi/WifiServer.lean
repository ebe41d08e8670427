import Vwifi.Signal
import Vwifi.Socket

/-!
# The registry of a wifi server

`CWifiServer` with the part of `CSocketServer` it uses. The two vectors
`InfoSockets` and `InfoWifis` are kept apart, as in the source: nothing but their
common use makes the k-th elements belong together. A missing result means that
an assertion fails or that a vector is used outside of its bounds.
-/

namespace Vwifi

set_option autoImplicit false

structure CWifiServer where
  maxClientDeconnected : TIndex
  infoSockets : List CInfoSocket
  infoWifis : List CInfoWifi
  infoWifisDeconnected : List CInfoWifi

def CInfoSocket.close (k : Kernel) (s : CInfoSocket) : Kernel × CInfoSocket :=
  if s.enable then (k.close s.descriptor, s.disableIt) else (k, s)

namespace CWifiServer

/-! ## CSocketServer -/

def getNumberClient (s : CWifiServer) : TIndex := s.infoSockets.length

def getSocketClient (s : CWifiServer) (index : TIndex) : Option TDescriptor :=
  (s.infoSockets[index]?).map CInfoSocket.descriptor

def isEnable (s : CWifiServer) (index : TIndex) : Option Bool :=
  (s.infoSockets[index]?).map CInfoSocket.enable

def disableClient (s : CWifiServer) (index : TIndex) : Option CWifiServer :=
  if index < s.infoSockets.length then
    some { s with infoSockets := s.infoSockets.modify index CInfoSocket.disableIt }
  else none

/-- `CSocketServer::CloseClient` -/
def closeSocket (k : Kernel) (s : CWifiServer) (index : TIndex) : Option (Kernel × CWifiServer) :=
  match s.infoSockets[index]? with
  | none => none
  | some infoSocket =>
    some ((infoSocket.close k).1, { s with infoSockets := s.infoSockets.eraseIdx index })

/-! ## Records -/

def showInfoWifi (s : CWifiServer) (index : TIndex) : Option CInfoWifi :=
  if index < s.getNumberClient then s.infoWifis[index]? else none

def getReferenceOnInfoWifiByIndex (s : CWifiServer) (index : TIndex) : Option CInfoWifi :=
  if index < s.getNumberClient then s.infoWifis[index]? else none

/-- A reference into `InfoWifis` is the index of the element. -/
def getReferenceOnInfoWifiByCID (s : CWifiServer) (cid : TCID) : Option Nat :=
  s.infoWifis.findIdx? (·.cid = cid)

def getReferenceOnInfoWifiDeconnectedByCID (s : CWifiServer) (cid : TCID) : Option Nat :=
  s.infoWifisDeconnected.findIdx? (·.cid = cid)

def addInfoWifiDeconnected (s : CWifiServer) (infoWifi : CInfoWifi) : Option CWifiServer :=
  if s.maxClientDeconnected ≤ s.infoWifisDeconnected.length then
    match s.infoWifisDeconnected with
    | [] => none -- erase( begin() ) of an empty vector
    | _ :: rest => some { s with infoWifisDeconnected := rest ++ [infoWifi] }
  else some { s with infoWifisDeconnected := s.infoWifisDeconnected ++ [infoWifi] }

def recoverInfosOfInfoWifiDeconnected (s : CWifiServer) (cid : TCID) :
    Option (CCoordinate × CString × CWifiServer) :=
  match s.infoWifisDeconnected.find? (·.cid = cid) with
  | none => none
  | some w =>
    some (w.toCCoordinate, w.name,
      { s with infoWifisDeconnected := s.infoWifisDeconnected.eraseP (·.cid = cid) })

/-- The search of `RecoverInfosOfInfoWifi`: the index and the record it stops
at. The outer result is missing when `IsEnable(index)` asserts. -/
def recoverLoop (s : CWifiServer) (cid : TCID) : Nat → List CInfoWifi →
    Option (Option (Nat × CInfoWifi))
  | _, [] => some none
  | index, infoWifi :: rest =>
    match s.isEnable index with
    | none => none
    | some enable =>
      if enable ∧ infoWifi.cid = cid then some (some (index, infoWifi))
      else recoverLoop s cid (index + 1) rest

def recoverInfosOfInfoWifi (s : CWifiServer) (cid : TCID) :
    Option (Option (CCoordinate × CString × CWifiServer)) :=
  match recoverLoop s cid 0 s.infoWifis with
  | none => none
  | some none => some none
  | some (some (index, w)) =>
    match s.disableClient index with
    | none => none
    | some s => some (some (w.toCCoordinate, w.name, s))

/-- The end of `Accept`: the CID is set and the record appended. -/
def pushInfoWifi (s : CWifiServer) (cid : TCID) (infoWifi : CInfoWifi) : Option CWifiServer :=
  match infoWifi.setCid cid with
  | none => none
  | some infoWifi => some { s with infoWifis := s.infoWifis ++ [infoWifi] }

/-- `Accept`, once `_Accept` has returned a descriptor and a CID. -/
def accept (s : CWifiServer) (newSocket : TDescriptor) (cid : TCID) : Option CWifiServer :=
  let s : CWifiServer := { s with infoSockets := s.infoSockets ++ [⟨newSocket, true⟩] }
  match s.recoverInfosOfInfoWifiDeconnected cid with
  | some (coo, name, s) => s.pushInfoWifi cid ((CInfoWifi.default.set coo).setName name)
  | none =>
    match s.recoverInfosOfInfoWifi cid with
    | none => none
    | some (some (coo, name, s)) => s.pushInfoWifi cid ((CInfoWifi.default.set coo).setName name)
    | some none => s.pushInfoWifi cid CInfoWifi.default

def closeClient (k : Kernel) (s : CWifiServer) (index : TIndex) : Option (Kernel × CWifiServer) :=
  match s.closeSocket k index with
  | none => none
  | some (k, s) =>
    match s.infoWifis[index]? with
    | none => none
    | some w =>
      match s.addInfoWifiDeconnected w with
      | none => none
      | some s => some (k, { s with infoWifis := s.infoWifis.eraseIdx index })

def closeLoop : Nat → Kernel → CWifiServer → Option (Kernel × CWifiServer)
  | 0, k, s => some (k, s)
  | nbre + 1, k, s =>
    match s.closeClient k 0 with
    | none => none
    | some (k, s) => closeLoop nbre k s

def closeAllClient (k : Kernel) (s : CWifiServer) : Option (Kernel × CWifiServer) :=
  closeLoop s.getNumberClient k s

/-! ## Sending to the registered clients -/

def sendSignal (k : Kernel) (d : TDescriptor) (power : TPower) (data : List UInt8) :
    Option Nat × Kernel :=
  CWifi.sendSignalWithSocket k d power data

def recvSignal (k : Kernel) (d : TDescriptor) (power : TPower) (buffer : CDynBuffer) :
    CWifi.Received :=
  CWifi.recvSignalWithSocket k d power buffer

/-- The loop the three sending functions share: every enabled entry but `skip`
is handed to `body`, and disabled when that fails. -/
def forEachEnabled (skip : Option TIndex)
    (body : TIndex → TDescriptor → Kernel → Option (Bool × Kernel)) :
    TIndex → List CInfoSocket → Kernel → Option (List CInfoSocket × Kernel)
  | _, [], k => some ([], k)
  | i, infoSocket :: rest, k =>
    if skip ≠ some i ∧ infoSocket.enable then
      match body i infoSocket.descriptor k with
      | none => none
      | some (sent, k) =>
        match forEachEnabled skip body (i + 1) rest k with
        | none => none
        | some (rest, k) => some ((if sent then infoSocket else infoSocket.disableIt) :: rest, k)
    else
      match forEachEnabled skip body (i + 1) rest k with
      | none => none
      | some (rest, k) => some (infoSocket :: rest, k)

def sendLoop (k : Kernel) (s : CWifiServer) (skip : Option TIndex)
    (body : TIndex → TDescriptor → Kernel → Option (Bool × Kernel)) :
    Option (Kernel × CWifiServer) :=
  match forEachEnabled skip body 0 s.infoSockets k with
  | none => none
  | some (infoSockets, k) => some (k, { s with infoSockets := infoSockets })

/-- `SendSignal(...) < 0` is the failure of the body. -/
def transmit (power : TPower) (data : List UInt8) (_ : TIndex) (d : TDescriptor) (k : Kernel) :
    Option (Bool × Kernel) :=
  let r := sendSignal k d power data
  some (r.1.isSome, r.2)

/-- The body of `SendAllOtherClients`, for a sender at `coo`. -/
def transmitAttenuated (medium : Medium) (canLostPackets : Bool) (scale : TScale)
    (s : CWifiServer) (coo : CCoordinate) (power : TPower) (data : List UInt8) (i : TIndex)
    (d : TDescriptor) (k : Kernel) : Option (Bool × Kernel) :=
  match s.infoWifis[i]? with
  | none => none
  | some w =>
    let frequency := CWifi.getFrequency medium data
    let distance := coo.distanceWith medium scale w.toCCoordinate
    let signalLevel :=
      CWifi.boundedPower (power.toInt32 - CWifi.attenuation medium distance frequency)
    if canLostPackets then
      match CWifi.packetIsLost k signalLevel with
      | (true, k) => some (true, k)
      | (false, k) => transmit signalLevel data i d k
    else transmit signalLevel data i d k

def sendAllOtherClients (medium : Medium) (canLostPackets : Bool) (scale : TScale) (k : Kernel)
    (s : CWifiServer) (index : TIndex) (power : TPower) (data : List UInt8) :
    Option (Kernel × CWifiServer) :=
  match s.infoWifis[index]? with
  | none => none
  | some w =>
    s.sendLoop k (some index)
      (transmitAttenuated medium canLostPackets scale s w.toCCoordinate power data)

def sendAllOtherClientsWithoutLoss (k : Kernel) (s : CWifiServer) (index : TIndex)
    (power : TPower) (data : List UInt8) : Option (Kernel × CWifiServer) :=
  s.sendLoop k (some index) (transmit power data)

def sendAllClientsWithoutLoss (k : Kernel) (s : CWifiServer) (power : TPower)
    (data : List UInt8) : Option (Kernel × CWifiServer) :=
  s.sendLoop k none (transmit power data)

end CWifiServer

end Vwifi
