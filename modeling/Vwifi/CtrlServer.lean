import Vwifi.Forward

/-!
# The control server

`CCTRLServer` and the state of the whole server. Each handler reads its
arguments with raw `Read` calls into local variables, and a `Read` that brings
fewer bytes than asked counts as a success; so a variable remembers how many of
its leading bytes the peer really sent.
-/

namespace Vwifi

set_option autoImplicit false

open LittleEndian

structure Listener where
  master : TDescriptor
  port : TPort

structure Server where
  hashUsesPort : Bool
  /-- Missing when VHOST is disabled. -/
  vtcp : Option Listener
  itcp : Listener
  spy : Listener
  ctrl : Listener
  /-- The lists shared by the VHOST and the TCP server. -/
  wifiServer : CWifiServer
  wifiServerSPY : CWifiServer
  ctrlSockets : List CInfoSocket
  globals : Globals

/-- The local variables that `Read` fills. -/
inductive Local where
  | order | cid | cid1 | cid2 | sizeName | strName | value | newScale

/-- What the stack holds where a local variable is placed. -/
abbrev Stack := Local → Nat → UInt8

structure Var where
  bytes : List UInt8
  received : Nat

namespace Var

def uninitialised (stack : Stack) (l : Local) (size : Nat) : Var :=
  ⟨(List.range size).map (stack l), 0⟩

def toNat (v : Var) : Nat := value v.bytes

def toCID (v : Var) : TCID := UInt32.ofNat v.toNat

end Var

namespace Server

def kernel (s : Server) : Kernel := s.globals.kernel

def withKernel (s : Server) (k : Kernel) : Server :=
  { s with globals := { s.globals with kernel := k } }

/-- `CCTRLServer::Read` into a local variable. -/
def read (s : Server) (d : TDescriptor) (v : Var) : Option Var × Server :=
  match CSocket.read s.kernel d v.bytes.length with
  | (none, k) => (none, s.withKernel k)
  | (some bytes, k) => (some ⟨bytes ++ v.bytes.drop bytes.length, bytes.length⟩, s.withKernel k)

/-- `CCTRLServer::Send`: whether it succeeds. -/
def send (s : Server) (d : TDescriptor) (data : List UInt8) : Bool × Server :=
  let r := CSocket.send s.kernel d data
  (r.1.isSome, s.withKernel r.2)

/-- The leading `needed` bytes of `v` are looked at. -/
def look (s : Server) (v : Var) (needed : Nat) : Server :=
  s.withKernel (s.kernel.record [.use needed v.received])

/-! ## The list of the clients -/

def sizeNameBytes (w : CInfoWifi) : List UInt8 := image 4 w.name.bytes.length

def sendCInfoWifi (s : Server) (d : TDescriptor) (w : CInfoWifi) : Bool × Server :=
  match s.send d (image 4 w.cid.toNat) with
  | (false, s) => (false, s)
  | (true, s) =>
    match s.send d w.toCCoordinate.bytes with
    | (false, s) => (false, s)
    | (true, s) =>
      match s.send d (sizeNameBytes w) with
      | (false, s) => (false, s)
      | (true, s) =>
        if 0 < w.name.bytes.length then s.send d (w.name.bytes ++ [0]) else (true, s)

/-- The loop over the entries of one registry; it ends early, with `false`, when
a record cannot be sent. -/
def sendInfos (d : TDescriptor) (srv : CWifiServer) : List TIndex → Server →
    Option (Bool × Server)
  | [], s => some (true, s)
  | i :: rest, s =>
    match srv.isEnable i with
    | none => none
    | some false => sendInfos d srv rest s
    | some true =>
      match srv.getReferenceOnInfoWifiByIndex i with
      | none => none
      | some w =>
        match s.sendCInfoWifi d w with
        | (false, s) => some (false, s)
        | (true, s) => sendInfos d srv rest s

/-- One half of `SendList`: the number of entries, then the enabled ones. -/
def sendRegistry (d : TDescriptor) (srv : CWifiServer) (s : Server) : Option (Bool × Server) :=
  match s.send d (image 4 srv.getNumberClient) with
  | (false, s) => some (false, s)
  | (true, s) => sendInfos d srv (List.range srv.getNumberClient) s

def sendList (d : TDescriptor) (s : Server) : Option Server :=
  match sendRegistry d s.wifiServerSPY s with
  | none => none
  | some (false, s) => some s
  | some (true, s) => (sendRegistry d s.wifiServer s).map Prod.snd

/-! ## Orders that change a record -/

/-- The update of a record through a reference into `InfoWifis`. -/
def updateInfoWifi (srv : CWifiServer) (index : Nat) (f : CInfoWifi → CInfoWifi) : CWifiServer :=
  { srv with infoWifis := srv.infoWifis.modify index f }

def updateInfoWifiDeconnected (srv : CWifiServer) (index : Nat) (f : CInfoWifi → CInfoWifi) :
    CWifiServer :=
  { srv with infoWifisDeconnected := srv.infoWifisDeconnected.modify index f }

/-- `ChangeCoordinate` once its arguments are read. -/
def storeCoordinate (s : Server) (cid : TCID) (coo : CCoordinate) : Option Server :=
  match s.wifiServer.getReferenceOnInfoWifiByCID cid with
  | some i => some { s with wifiServer := updateInfoWifi s.wifiServer i (·.set coo) }
  | none =>
    match s.wifiServer.getReferenceOnInfoWifiDeconnectedByCID cid with
    | some i => some { s with wifiServer := updateInfoWifiDeconnected s.wifiServer i (·.set coo) }
    | none =>
      match CInfoWifi.ofCoordinate cid coo with
      | none => none
      | some infoNewWifi =>
        (s.wifiServer.addInfoWifiDeconnected infoNewWifi).map fun srv =>
          { s with wifiServer := srv }

def changeCoordinate (stack : Stack) (d : TDescriptor) (s : Server) : Option Server :=
  match s.read d (.uninitialised stack .cid 4) with
  | (none, s) => some s
  | (some cid, s) =>
    -- the default constructor has set the three components to zero
    match s.read d ⟨CCoordinate.zero.bytes, 0⟩ with
    | (none, s) => some s
    | (some coo, s) =>
      let s := s.look cid 4
      if cid.toCID < tcidGuestMin then some s
      else (s.look coo 12).storeCoordinate cid.toCID (CCoordinate.ofBytes coo.bytes)

/-- `SetName` once its arguments are read. -/
def storeName (s : Server) (cid : TCID) (name : CString) : Server :=
  match s.wifiServer.getReferenceOnInfoWifiByCID cid with
  | some i => { s with wifiServer := updateInfoWifi s.wifiServer i (·.setName name) }
  | none =>
    match s.wifiServer.getReferenceOnInfoWifiDeconnectedByCID cid with
    | some i => { s with wifiServer := updateInfoWifiDeconnected s.wifiServer i (·.setName name) }
    | none =>
      match s.wifiServerSPY.getReferenceOnInfoWifiByCID cid with
      | some i => { s with wifiServerSPY := updateInfoWifi s.wifiServerSPY i (·.setName name) }
      | none => s

def setName (stack : Stack) (d : TDescriptor) (s : Server) : Option Server :=
  match s.read d (.uninitialised stack .cid 4) with
  | (none, s) => some s
  | (some cid, s) =>
    match s.read d (.uninitialised stack .sizeName 4) with
    | (none, s) => some s
    | (some _, s) =>
      match s.read d (.uninitialised stack .strName (maxSizeName + 1)) with
      | (none, s) => some s
      | (some strName, s) =>
        let s := s.look cid 4
        if cid.toCID < tcidGuestMin then some s
        else
          let name := CString.ofBuffer strName.bytes
          -- without a terminator `string name(strName)` runs past the array
          if name.bytes.length = strName.bytes.length then none
          else some ((s.look strName (name.bytes.length + 1)).storeName cid.toCID name)

/-! ## The other orders -/

def changePacketLoss (stack : Stack) (d : TDescriptor) (s : Server) : Option Server :=
  match s.read d (.uninitialised stack .value 4) with
  | (none, s) => some s
  | (some v, s) =>
    let s := s.look v 4
    some { s with globals := { s.globals with canLostPackets := v.toNat ≠ 0 } }

def boolByte (b : Bool) : List UInt8 := [if b then 1 else 0]

/-- Sends in order, up to the first that fails. -/
def sendFields (d : TDescriptor) : List (List UInt8) → Server → Server
  | [], s => s
  | field :: rest, s =>
    match s.send d field with
    | (false, s) => s
    | (true, s) => sendFields d rest s

def spyIsConnected (s : Server) : Bool := s.wifiServerSPY.getNumberClient > 0

def sendStatus (d : TDescriptor) (s : Server) : Server :=
  let vhost := match s.vtcp with
    | some vtcp => [image 2 vtcp.port.toNat]
    | none => []
  sendFields d
    ([boolByte s.globals.canLostPackets, image 8 s.globals.scale.toNat] ++ vhost ++
      [image 2 s.itcp.port.toNat, image 4 s.wifiServer.maxClientDeconnected,
        boolByte s.spyIsConnected]) s

def sendShow (d : TDescriptor) (s : Server) : Server :=
  sendFields d
    [boolByte s.globals.canLostPackets, image 8 s.globals.scale.toNat,
      boolByte s.spyIsConnected] s

/-- The record a CID is looked up to by `SendDistance`. -/
def findCoordinate (s : Server) (cid : TCID) : Option CCoordinate :=
  match s.wifiServer.getReferenceOnInfoWifiByCID cid with
  | some i => (s.wifiServer.infoWifis[i]?).map CInfoWifi.toCCoordinate
  | none =>
    match s.wifiServer.getReferenceOnInfoWifiDeconnectedByCID cid with
    | some i => (s.wifiServer.infoWifisDeconnected[i]?).map CInfoWifi.toCCoordinate
    | none => none

/-- The codes -1 and -2 of an unknown first or second CID, as `int`. -/
def unknownCid1 : List UInt8 := image 4 0xFFFFFFFF
def unknownCid2 : List UInt8 := image 4 0xFFFFFFFE

def sendDistance (medium : Medium) (stack : Stack) (d : TDescriptor) (s : Server) : Server :=
  match s.read d (.uninitialised stack .cid1 4) with
  | (none, s) => s
  | (some cid1, s) =>
    match s.read d (.uninitialised stack .cid2 4) with
    | (none, s) => s
    | (some cid2, s) =>
      let s := s.look cid1 4
      match s.findCoordinate cid1.toCID with
      | none => (s.send d unknownCid1).2
      | some coo1 =>
        let s := s.look cid2 4
        match s.findCoordinate cid2.toCID with
        | none => (s.send d unknownCid2).2
        | some coo2 =>
          sendFields d
            [image 4 0, image 8 (coo1.distanceWith medium s.globals.scale coo2).toNat] s

def setScale (stack : Stack) (d : TDescriptor) (s : Server) : Server :=
  match s.read d (.uninitialised stack .newScale 8) with
  | (none, s) => s
  | (some newScale, s) =>
    let s := s.look newScale 8
    { s with globals := { s.globals with scale := UInt64.ofNat newScale.toNat } }

/-- The nodes of one registry leave the scheduler. -/
def delNodes (sched : CSelect) (srv : CWifiServer) : CSelect :=
  srv.infoSockets.foldl (fun sched infoSocket => sched.delNode infoSocket.descriptor) sched

def closeAllClient (s : Server) : Option Server :=
  let g := { s.globals with scheduler := delNodes s.globals.scheduler s.wifiServer }
  match s.wifiServer.closeAllClient g.kernel with
  | none => none
  | some (k, wifiServer) =>
    let g := { g with scheduler := delNodes g.scheduler s.wifiServerSPY, kernel := k }
    match s.wifiServerSPY.closeAllClient g.kernel with
    | none => none
    | some (k, wifiServerSPY) =>
      some { s with
        wifiServer := wifiServer
        wifiServerSPY := wifiServerSPY
        globals := { g with kernel := k } }

/-! ## Receiving an order -/

def getOrder (stack : Stack) (d : TDescriptor) (s : Server) : TOrder × Server :=
  if s.ctrlSockets.length ≠ 1 then (.torderNo, s)
  else
    match s.read d (.uninitialised stack .order 4) with
    | (none, s) => (.torderNo, s)
    | (some order, s) => (TOrder.ofCode order.toNat, s.look order 4)

def serve (medium : Medium) (stack : Stack) (d : TDescriptor) (s : Server) : TOrder →
    Option Server
  | .torderNo => some s
  | .torderList => s.sendList d
  | .torderShow => some (s.sendShow d)
  | .torderChangeCoordinate => s.changeCoordinate stack d
  | .torderSetName => s.setName stack d
  | .torderPacketLoss => s.changePacketLoss stack d
  | .torderStatus => some (s.sendStatus d)
  | .torderDistanceBetweenCid => some (s.sendDistance medium stack d)
  | .torderSetScale => some (s.setScale stack d)
  | .torderCloseAllClient => s.closeAllClient

/-- `CloseClient(0)` of the control server. -/
def closeCtrlClient (s : Server) : Option Server :=
  match s.ctrlSockets with
  | [] => none
  | infoSocket :: rest =>
    some { s.withKernel (infoSocket.close s.kernel).1 with ctrlSockets := rest }

/-- `Accept` of the control server, once it returns the connection `c`. -/
def acceptCtrlClient (c : Incoming) (s : Server) : Server :=
  { s.withKernel (s.kernel.accept c) with
    ctrlSockets := s.ctrlSockets ++ [CInfoSocket.mk c.descriptor true] }

/-- `GetSocketClient(0)` of the control server. -/
def getSocketCtrl (s : Server) : Option TDescriptor :=
  (s.ctrlSockets[0]?).map CInfoSocket.descriptor

def receiveOrder (medium : Medium) (stack : Stack) (c : Incoming) (s : Server) : Option Server :=
  let s := s.acceptCtrlClient c
  match s.getSocketCtrl with
  | none => none
  | some d =>
    match s.getOrder stack d with
    | (order, s) =>
      match s.serve medium stack d order with
      | none => none
      | some s => s.closeCtrlClient

end Server

end Vwifi
