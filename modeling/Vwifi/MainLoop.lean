import Vwifi.CtrlServer
import Vwifi.Lib.Lts

/-!
# The main loop of vwifi-server

`vwifi_server` as a transition system: a phase for each place of the loop, a
label for what the environment does there. `ForwardData` takes one step for
each round of its loop. No step leaves a configuration in which the process
ends: a failed `accept` of a wifi server, `SCHEDULER_ERROR`, a failed assertion.
-/

namespace Vwifi

set_option autoImplicit false

/-- `struct sockaddr_in`, in the byte order it has in memory, read by a
little-endian host: the first octet of the address is the lowest byte. -/
structure SockaddrIn where
  sAddr : UInt32
  sinPort : UInt16
deriving DecidableEq

def hashIpaddr (hashUsesPort : Bool) (addr : SockaddrIn) : Nat :=
  let res :=
    (((addr.sAddr >>> 24) &&& 0xff) * 256).toNat + (((addr.sAddr >>> 16) &&& 0xff) * 256).toNat +
      (((addr.sAddr >>> 8) &&& 0xff) * 256).toNat + (addr.sAddr &&& 0xff).toNat
  if hashUsesPort then res + addr.sinPort.toNat else res

/-- What the process is started with. -/
structure Setup where
  hashUsesPort : Bool
  canLostPackets : Bool
  vtcp : Option Listener
  itcp : Listener
  spy : Listener
  ctrl : Listener
  heap : Nat → UInt8
  rands : List Nat
  distinct : ((vtcp.toList ++ [itcp, spy, ctrl]).map Listener.master).Nodup

inductive Phase where
  | wait | acceptVTCP | acceptITCP | acceptSPY | order
  | forward (srcIsSpy : Bool) (i : TIndex)
deriving DecidableEq

inductive Label where
  | select (r : CSelect.Selection)
  | connectVm (c : Incoming) (svmCid : UInt32)
  | connectIn (c : Incoming) (addr : SockaddrIn)
  | order (c : Incoming) (stack : Stack)
  | refused
  | skip

structure Config where
  phase : Phase
  server : Server

namespace Server

def listeners (s : Server) : List TDescriptor :=
  (s.vtcp.toList ++ [s.itcp, s.spy, s.ctrl]).map Listener.master

def init (c : Setup) : Server :=
  let scheduler := ((c.vtcp.toList ++ [c.itcp, c.spy, c.ctrl]).map Listener.master).foldl
    CSelect.addNode CSelect.init
  { hashUsesPort := c.hashUsesPort
    vtcp := c.vtcp
    itcp := c.itcp
    spy := c.spy
    ctrl := c.ctrl
    wifiServer := ⟨wifiMaxDeconnectedClient, [], [], []⟩
    wifiServerSPY := ⟨1, [], [], []⟩
    ctrlSockets := []
    globals :=
      { scheduler := scheduler
        buffer := ⟨(List.range defaultSizeBuffer).map c.heap⟩
        canLostPackets := c.canLostPackets
        scale := 0x3FF0000000000000
        kernel := ⟨fun _ => [], fun _ => [], c.rands, c.heap, []⟩ } }

def hasAction (s : Server) (d : TDescriptor) : Bool := s.globals.scheduler.descriptorHasAction d

/-- The promise of `accept`: the descriptor it returns is not open. -/
def unused (s : Server) (d : TDescriptor) : Bool :=
  d ∉ s.listeners ∧ ¬ isOpen d s.kernel.log

/-- `Accept` of a server that shares the lists of the clients, `AddNode`, and
the display of the new record. -/
def acceptClient (s : Server) (c : Incoming) (cid : TCID) : Option Server :=
  match s.wifiServer.accept c.descriptor cid with
  | none => none
  | some wifiServer =>
    match wifiServer.showInfoWifi (wifiServer.getNumberClient - 1) with
    | none => none
    | some _ =>
      some { s with
        wifiServer := wifiServer
        globals := { s.globals with
          kernel := s.kernel.accept c
          scheduler := s.globals.scheduler.addNode c.descriptor } }

def acceptSpy (s : Server) (c : Incoming) (cid : TCID) : Option Server :=
  match s.wifiServerSPY.accept c.descriptor cid with
  | none => none
  | some wifiServerSPY =>
    match wifiServerSPY.getReferenceOnInfoWifiByIndex (wifiServerSPY.getNumberClient - 1) with
    | none => none
    | some _ =>
      some { s with
        wifiServerSPY := wifiServerSPY
        globals := { s.globals with
          kernel := s.kernel.accept c
          scheduler := s.globals.scheduler.addNode c.descriptor } }

def cidOf (s : Server) (addr : SockaddrIn) : TCID :=
  UInt32.ofNat (hashIpaddr s.hashUsesPort addr)

def pass (s : Server) (srcIsSpy : Bool) : Pass :=
  if srcIsSpy then ⟨s.wifiServerSPY, s.wifiServer, s.globals⟩
  else ⟨s.wifiServer, s.wifiServerSPY, s.globals⟩

def withPass (s : Server) (srcIsSpy : Bool) (p : Pass) : Server :=
  if srcIsSpy then { s with wifiServerSPY := p.src, wifiServer := p.otherDst, globals := p.globals }
  else { s with wifiServer := p.src, wifiServerSPY := p.otherDst, globals := p.globals }

end Server

namespace Config

/-- Whether VHOST is enabled and its descriptor is ready. -/
def vtcpHasAction (s : Server) : Bool :=
  match s.vtcp with
  | none => false
  | some vtcp => s.hasAction vtcp.master

def next (s : Server) (phase : Phase) : Option Config := some ⟨phase, s⟩

def selectStep (s : Server) (r : CSelect.Selection) : Option Config :=
  match s.globals.scheduler.wait r with
  | (ret, scheduler) =>
    if ret = CSelect.schedulerError then none
    else next { s with globals := { s.globals with scheduler := scheduler } } .acceptVTCP

def forwardStep (medium : Medium) (s : Server) (srcIsSpy : Bool) (i : TIndex) : Option Config :=
  if i < (s.pass srcIsSpy).src.getNumberClient then
    ((s.pass srcIsSpy).visit medium srcIsSpy i).map fun r =>
      ⟨.forward srcIsSpy r.2, s.withPass srcIsSpy r.1⟩
  else next s (if srcIsSpy then .wait else .forward true 0)

def step (medium : Medium) (c : Config) (l : Label) : Option Config :=
  let s := c.server
  match c.phase, l with
  | .wait, .select r => selectStep s r
  | .acceptVTCP, .connectVm inc svmCid =>
    if vtcpHasAction s ∧ s.unused inc.descriptor then
      (s.acceptClient inc svmCid).bind fun s => next s .acceptITCP
    else none
  | .acceptVTCP, .skip => if vtcpHasAction s then none else next s .acceptITCP
  | .acceptITCP, .connectIn inc addr =>
    if s.hasAction s.itcp.master ∧ s.unused inc.descriptor then
      (s.acceptClient inc (s.cidOf addr)).bind fun s => next s .acceptSPY
    else none
  | .acceptITCP, .skip => if s.hasAction s.itcp.master then none else next s .acceptSPY
  | .acceptSPY, .connectIn inc addr =>
    if s.hasAction s.spy.master ∧ s.unused inc.descriptor then
      (s.acceptSpy inc (s.cidOf addr)).bind fun s => next s .order
    else none
  | .acceptSPY, .skip => if s.hasAction s.spy.master then none else next s .order
  | .order, .order inc stack =>
    if s.hasAction s.ctrl.master ∧ s.unused inc.descriptor then
      (s.receiveOrder medium stack inc).bind fun s => next s (.forward false 0)
    else none
  | .order, .refused => if s.hasAction s.ctrl.master then next s (.forward false 0) else none
  | .order, .skip => if s.hasAction s.ctrl.master then none else next s (.forward false 0)
  | .forward srcIsSpy i, .skip => forwardStep medium s srcIsSpy i
  | _, _ => none

def init (c : Setup) : Config := ⟨.wait, Server.init c⟩

end Config

/-! ## A small server -/

/-- Only TCP, with the default ports. -/
def Setup.tcp : Setup where
  hashUsesPort := false
  canLostPackets := false
  vtcp := none
  itcp := ⟨3, 8212⟩
  spy := ⟨4, 8213⟩
  ctrl := ⟨5, 8214⟩
  heap := fun _ => 0
  rands := []
  distinct := by decide

/-- An iteration in which a TCP client connects and nothing else happens; the
passes of `ForwardData` take `rounds` steps. -/
def Label.joins (c : Incoming) (addr : SockaddrIn) (rounds : Nat) : List Label :=
  [.select (.ready (· = 3) 1), .skip, .connectIn c addr, .skip, .skip] ++
    List.replicate rounds .skip

/-- An iteration in which only the connection `d` is ready. -/
def Label.speaks (d : TDescriptor) (rounds : Nat) : List Label :=
  [.select (.ready (· = d) 1), .skip, .skip, .skip, .skip] ++ List.replicate rounds .skip

end Vwifi
