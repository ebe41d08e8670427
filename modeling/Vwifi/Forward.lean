import Vwifi.Select
import Vwifi.WifiServer

/-!
# Forwarding frames

`RemoveClient` and `ForwardData`. One round of the loop of `ForwardData` is
`visit`; the loop itself runs on fuel, and the number of clients present at its
start is enough (see `ForwardPass`).
-/

namespace Vwifi

set_option autoImplicit false

/-- The global variables of the server and the kernel below them. -/
structure Globals where
  scheduler : CSelect
  buffer : CDynBuffer
  canLostPackets : Bool
  scale : TScale
  kernel : Kernel

/-- What `ForwardData` works on: the registry it reads from and the other one. -/
structure Pass where
  src : CWifiServer
  otherDst : CWifiServer
  globals : Globals

def removeClient (g : Globals) (srv : CWifiServer) (srvIsSpy : Bool) (i : TIndex)
    (socket : TDescriptor) : Option (Globals × CWifiServer) :=
  let displayed :=
    if srvIsSpy then srv.getReferenceOnInfoWifiByIndex i else srv.showInfoWifi i
  match displayed with
  | none => none
  | some _ =>
    match srv.closeClient g.kernel i with
    | none => none
    | some (k, srv) =>
      some ({ g with kernel := k, scheduler := g.scheduler.delNode socket }, srv)

namespace Pass

def remove (p : Pass) (srcIsSpy : Bool) (i : TIndex) (socket : TDescriptor) : Option Pass :=
  match removeClient p.globals p.src srcIsSpy i socket with
  | none => none
  | some (g, src) => some { p with src := src, globals := g }

/-- `src` gets the frame from its own entry `i`. -/
def sendToSource (medium : Medium) (srcIsSpy : Bool) (p : Pass) (i : TIndex) (power : TPower)
    (data : List UInt8) : Option Pass :=
  let g := p.globals
  let sent :=
    if srcIsSpy then p.src.sendAllOtherClientsWithoutLoss g.kernel i power data
    else p.src.sendAllOtherClients medium g.canLostPackets g.scale g.kernel i power data
  match sent with
  | none => none
  | some (k, src) => some { p with src := src, globals := { g with kernel := k } }

def sendToOther (p : Pass) (power : TPower) (data : List UInt8) : Option Pass :=
  match p.otherDst.sendAllClientsWithoutLoss p.globals.kernel power data with
  | none => none
  | some (k, dst) => some { p with otherDst := dst, globals := { p.globals with kernel := k } }

/-- One round of the loop at index `i`, with the index of the next round. -/
def visit (medium : Medium) (srcIsSpy : Bool) (p : Pass) (i : TIndex) : Option (Pass × TIndex) :=
  match p.src.getSocketClient i, p.src.isEnable i with
  | some socket, some enable =>
    if ¬ enable then (p.remove srcIsSpy i socket).map fun p => (p, i)
    else if p.globals.scheduler.descriptorHasAction socket then
      -- the variable `power` has no value before `RecvSignal` gives it one
      let r := CWifiServer.recvSignal p.globals.kernel socket 0 p.globals.buffer
      let p := { p with globals := { p.globals with kernel := r.kernel, buffer := r.buffer } }
      if r.valread ≤ 0 then (p.remove srcIsSpy i socket).map fun p => (p, i)
      else
        let data := r.buffer.buffer.take r.valread.toNat
        match p.sendToSource medium srcIsSpy i r.power data with
        | none => none
        | some p => (p.sendToOther r.power data).map fun p => (p, i + 1)
    else some (p, i + 1)
  | _, _ => none

def forwardLoop (medium : Medium) (srcIsSpy : Bool) : Nat → Pass → TIndex → Option Pass
  | 0, p, i => if i < p.src.getNumberClient then none else some p
  | fuel + 1, p, i =>
    if i < p.src.getNumberClient then
      match p.visit medium srcIsSpy i with
      | none => none
      | some (p, i) => forwardLoop medium srcIsSpy fuel p i
    else some p

def forwardData (medium : Medium) (srcIsSpy : Bool) (p : Pass) : Option Pass :=
  p.forwardLoop medium srcIsSpy p.src.getNumberClient 0

end Pass

end Vwifi
