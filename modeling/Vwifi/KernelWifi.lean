import Vwifi.Netlink
import Vwifi.Select
import Vwifi.Socket

/-!
# The client

`CKernelWifi` with the socket of `CWifiClient`: the side of the driver
(`Hwsim`), the side of the server (`Uplink`) and the list of interfaces. A
function that follows a null pointer or fails an assertion has no result.
-/

namespace Vwifi

set_option autoImplicit false

namespace Kernel

/-- `socket()`: to the log a descriptor that opens, with no peer yet. -/
def socket (k : Kernel) (d : TDescriptor) : Kernel := k.accept ⟨d, [], []⟩

/-- A `connect()` that succeeds. -/
def connect (k : Kernel) (c : Incoming) : Kernel :=
  { k with
    inbox := Function.update k.inbox c.descriptor c.inbox
    room := Function.update k.room c.descriptor c.room }

end Kernel

/-! ## The side of the driver -/

inductive HwsimMsg where
  | register (familyId : Int)
  | txInfoFrame (src : EtherAddr) (flags : UInt32) (signal : Int) (txAttempts : List UInt8)
      (cookie : UInt64)
  | clonedFrame (dst : EtherAddr) (data : List UInt8) (rateIdx : Nat) (signal : Int)
      (freq : TFrequency)
deriving DecidableEq

/-- A call of one of the functions that send to the driver, with its result. -/
structure HwsimCall where
  msg : HwsimMsg
  sent : Bool
deriving DecidableEq

structure Hwsim where
  familyId : Int
  initialized : Bool
  calls : List HwsimCall

namespace Hwsim

def init : Hwsim := ⟨1, false, []⟩

def call (h : Hwsim) (msg : HwsimMsg) (sent : Bool) : Hwsim :=
  { h with calls := h.calls ++ [⟨msg, sent⟩] }

/-- `ok` is whether libnl allocates, fills and sends the message. -/
def sendRegisterMsg (h : Hwsim) (ok : Bool) : Hwsim := h.call (.register h.familyId) ok

def sendTxInfoFrameNl (h : Hwsim) (src : EtherAddr) (flags : UInt32) (signal : Int)
    (txAttempts : List UInt8) (cookie : UInt64) (ok : Bool) : Hwsim :=
  h.call (.txInfoFrame src flags signal txAttempts cookie) (0 ≤ h.familyId && ok)

def sendClonedFrameMsg (h : Hwsim) (dst : EtherAddr) (data : List UInt8) (rateIdx : Nat)
    (signal : Int) (freq : TFrequency) (ok : Bool) : Hwsim :=
  h.call (.clonedFrame dst data rateIdx signal freq) (0 ≤ h.familyId && ok)

/-- The loop over the radios, with the results of the calls in their order. -/
def cloneFrame (data : List UInt8) (rateIdx : Nat) (signal : Int) (freq : TFrequency) :
    List EtherAddr → List Bool → Hwsim → Hwsim
  | [], _, h => h
  | dst :: rest, oks, h =>
    cloneFrame data rateIdx signal freq rest oks.tail
      (h.sendClonedFrameMsg dst data rateIdx signal freq (oks.headD true))

end Hwsim

/-! ## The side of the server -/

/-- What becomes of `socket()` and `connect()`. -/
inductive Attempt where
  | noSocket
  | refused (descriptor : TDescriptor)
  | connected (c : Incoming)

/-- No `master` stands for `SOCKET_ERROR`. -/
structure Uplink where
  scheduler : CSelect
  master : Option TDescriptor
  connectedToServer : Bool
  buffer : CDynBuffer
  kernel : Kernel

namespace Uplink

def init (heap : Nat → UInt8) : Uplink where
  scheduler := CSelect.init
  master := some 0
  connectedToServer := false
  buffer := ⟨(List.range defaultSizeBuffer).map heap⟩
  kernel := ⟨fun _ => [], fun _ => [], [], heap, []⟩

/-- `_Close` -/
def close (u : Uplink) : Uplink :=
  match u.master with
  | none => u
  | some d => { u with master := none, kernel := u.kernel.close d }

/-- `_Connect`: `Connect` of the socket, then `AddNode`. A refused socket is closed
again. -/
def connect (u : Uplink) : Attempt → Bool × Uplink
  | .noSocket => (false, { u with master := none })
  | .refused d => (false, { u with master := some d, kernel := u.kernel.socket d }.close)
  | .connected c =>
    (true,
      { u with
        master := some c.descriptor
        kernel := (u.kernel.socket c.descriptor).connect c
        scheduler := u.scheduler.addNode c.descriptor })

def manageServerCrash (u : Uplink) : Uplink := { u with connectedToServer := false }

def sendSignal (u : Uplink) (power : TPower) (data : List UInt8) : Option Nat × Uplink :=
  match u.master with
  | none => (none, u)
  | some d =>
    match CWifi.sendSignalWithSocket u.kernel d power data with
    | (value, k) => (value, { u with kernel := k })

def recvSignal (u : Uplink) (power : TPower) : CWifi.Received :=
  match u.master with
  | none => ⟨socketError, power, u.buffer, u.kernel⟩
  | some d => CWifi.recvSignalWithSocket u.kernel d power u.buffer

/-- What `process_messages` does about the result of `_SendSignal`. -/
def forward (u : Uplink) (power : TPower) (data : List UInt8) : Uplink :=
  match u.sendSignal power data with
  | (value, u) => if value = none then u.manageServerCrash else u

/-- What `recv_from_server` does about the result of `_RecvSignal`. -/
def received (u : Uplink) (r : CWifi.Received) : Uplink :=
  let u := { u with buffer := r.buffer, kernel := r.kernel }
  if r.valread = socketError then u.manageServerCrash else u

end Uplink

/-! ## Both sides -/

structure CKernelWifi where
  hwsim : Hwsim
  uplink : Uplink
  interfaces : Interfaces
  beingInitialized : Bool
  beingStarted : Bool

namespace CKernelWifi

def init (heap : Nat → UInt8) : CKernelWifi :=
  ⟨Hwsim.init, Uplink.init heap, Interfaces.init, false, false⟩

def radios (s : CKernelWifi) : List EtherAddr :=
  s.interfaces.listWinterfaces.listDevices.map WirelessDevice.machwsim

/-- The number of attempts. -/
def rateIdx : Nat := 7

def frequency (mem : Memory) (attrs : AttrTable) : TFrequency :=
  match attrs HwsimAttr.freq.code with
  | some freq => mem.nlaGetU32 freq
  | none => 0

/-- What of a message in memory `recv_from_server` injects: the address and the size
of the data and the frequency. -/
inductive Decoded where
  | ignored
  | nullFrame
  | frame (data : Int) (dataLen : Int) (freq : TFrequency)

def decode (libnl : Libnl) (mem : Memory) (old : AttrTable) : Decoded :=
  if mem.cmd ≠ HwsimCmd.frame.code then .ignored
  else
    let attrs := libnl.attrs mem old
    let freq := frequency mem attrs
    match attrs HwsimAttr.addrTransmitter.code with
    | none => .ignored
    | some _ =>
      match attrs HwsimAttr.frame.code with
      | none => .nullFrame
      | some frame => .frame (Memory.nlaData frame) (mem.nlaLen frame) freq

/-- `recv_from_server` from the return of `_RecvSignal` on. The address of the
destination is copied from the frame, six bytes at an offset of four. -/
def handleSignal (libnl : Libnl) (s : CKernelWifi) (r : CWifi.Received) (old : AttrTable)
    (around : Memory) (oks : List Bool) : Option CKernelWifi :=
  let u := s.uplink.received r
  let mem := Memory.ofBlock u.buffer.buffer around
  match decode libnl mem old with
  | .ignored => some { s with uplink := u }
  | .nullFrame => none
  | .frame data dataLen freq =>
    some { s with
      hwsim := s.hwsim.cloneFrame (mem.read data dataLen.toNat) rateIdx r.power.toInt freq
        s.radios oks
      uplink := { u with kernel := u.kernel.record [.use 10 dataLen.toNat] } }

/-- `recv_from_server` behind its first check, from `Scheduler.Wait()` on. -/
def recvFromServer (libnl : Libnl) (s : CKernelWifi) (selection : CSelect.Selection)
    (m : Unwritten) (oks : List Bool) : Option CKernelWifi :=
  match s.uplink.scheduler.wait selection with
  | (ret, scheduler) =>
    let s := { s with uplink := { s.uplink with scheduler := scheduler } }
    if ret = CSelect.schedulerError then some s
    else
      match s.uplink.scheduler.nodeHasAction 0 with
      | none => none
      | some false => some s
      | some true =>
        s.handleSignal libnl (s.uplink.recvSignal m.power) m.attrs m.around oks

/-- `HWSIM_TX_STAT_ACK` -/
def hwsimTxStatAck : UInt32 := 4

/-- `IEEE80211_TX_MAX_RATES * sizeof(struct hwsim_tx_rate)` -/
def txInfoSize : Nat := 8

/-- The address of the sender in the frame, ten bytes behind its beginning. -/
def framesrc (mem : Memory) (frame : Int) : EtherAddr := mem.etherAddr (Memory.nlaData frame + 10)

/-- The message is patched in place and at a fixed offset when the sender of the frame
is not its transmitter. -/
def updateTransmitter (mem : Memory) (src frame : Int) : Memory :=
  if framesrc mem frame ≠ mem.etherAddr (Memory.nlaData src) then
    mem.write 24 (framesrc mem frame).octets
  else mem

/-- The power is kept in hundredths by the interface. -/
def transmitPower (s : CKernelWifi) (framesrc : EtherAddr) : TPower :=
  match s.interfaces.listWinterfaces.getDeviceByMac framesrc with
  | some dev => Int8.ofInt (dev.txpower.tdiv 100)
  | none => 10

/-- `process_messages` once the attributes it needs are found. -/
def forwardFrame (s : CKernelWifi) (mem : Memory) (msgLen : Nat) (attrs : AttrTable)
    (src frame : Int) (oks : List Bool) : CKernelWifi :=
  let macsrchwsim := mem.etherAddr (Memory.nlaData src)
  let dataLen := mem.nlaLen frame
  let power := s.transmitPower (framesrc mem frame)
  let mem := updateTransmitter mem src frame
  { s with
    hwsim := s.hwsim.cloneFrame (mem.read (Memory.nlaData frame) dataLen.toNat) rateIdx
      power.toInt (frequency mem attrs) (s.radios.filter (· ≠ macsrchwsim)) oks
    uplink :=
      { s.uplink with kernel := s.uplink.kernel.record [.use 16 dataLen.toNat] }.forward power
        (mem.read 0 msgLen) }

/-- An attribute for the flags, for the rates or for the frame is not checked for:
`nla_get_u32`, `nla_put` and `nla_len` follow the null pointer. -/
def processMessages (libnl : Libnl) (s : CKernelWifi) (msg : NlMessage) (old : AttrTable)
    (around : Memory) (oks : List Bool) : Option CKernelWifi :=
  let mem := Memory.ofBlock msg.bytes around
  if ¬ s.uplink.connectedToServer then some s
  else if (mem.nlmsgType : Int) ≠ s.hwsim.familyId then some s
  else if mem.cmd ≠ HwsimCmd.frame.code then some s
  else
    let attrs := libnl.attrs mem old
    match attrs HwsimAttr.addrTransmitter.code with
    | none => some s
    | some src =>
      match attrs HwsimAttr.flags.code, attrs HwsimAttr.txInfo.code,
        attrs HwsimAttr.frame.code with
      | some flags, some txInfo, some frame =>
        let h := s.hwsim.sendTxInfoFrameNl (mem.etherAddr (Memory.nlaData src))
          (mem.nlaGetU32 flags ||| hwsimTxStatAck) (-10)
          (mem.read (Memory.nlaData txInfo) txInfoSize)
          (mem.nlaGetU64 (attrs HwsimAttr.cookie.code)) (oks.headD true)
        some ({ s with hwsim := h }.forwardFrame mem msg.bytes.length attrs src frame oks.tail)
      | _, _, _ => none

end CKernelWifi

end Vwifi
