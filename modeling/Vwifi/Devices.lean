import Mathlib.Data.Int.Order.Basic
import Vwifi.Lib.SortedMap
import Vwifi.Types

/-!
# The wireless interfaces of a client

`WirelessDevice`, `WirelessDeviceList`, and the part of `MonitorWirelessDevice`
and `CKernelWifi` that keeps the list: reports of nl80211 add an interface under
its index, and link messages of the route socket remove it. Messages come parsed
into their attributes, and what `ioctl` answers comes with the report it is
asked for.
-/

namespace Vwifi

set_option autoImplicit false

/-- `ETH_ALEN` -/
def ethAlen : Nat := 6

/-- `struct ether_addr` -/
structure EtherAddr where
  octets : List UInt8
  length : octets.length = ethAlen
deriving DecidableEq

theorem EtherAddr.ext_octets {a b : EtherAddr} (h : a.octets = b.octets) : a = b := by
  cases a
  cases b
  congr

structure WirelessDevice where
  name : CString
  index : Int
  iftype : Int
  txpower : Int
  macaddr : EtherAddr
  machwsim : EtherAddr
deriving DecidableEq

namespace WirelessDevice

/-- The constructor without an address of the driver. -/
def ofMac (name : CString) (index iftype : Int) (macaddr : EtherAddr) (txpower : Int) :
    WirelessDevice :=
  ⟨name, index, iftype, txpower, macaddr, macaddr⟩

def setMachwsim (d : WirelessDevice) (machwsim : EtherAddr) : WirelessDevice :=
  { d with machwsim := machwsim }

/-- The bytes of `wlan`. -/
def wlanPrefix : List UInt8 := [119, 108, 97, 110]

def isDigit (b : UInt8) : Bool := 48 ≤ b ∧ b ≤ 57

/-- `regex_match` with `wlan[0-9]*` -/
def checkifWirelessDevice (d : WirelessDevice) : Bool :=
  wlanPrefix.isPrefixOf d.name.bytes && (d.name.bytes.drop wlanPrefix.length).all isDigit

end WirelessDevice

/-- `std::map<int,WirelessDevice>` -/
abbrev WirelessDeviceList := SortedMap Int WirelessDevice

namespace WirelessDeviceList

def addDevice (l : WirelessDeviceList) (d : WirelessDevice) : WirelessDeviceList :=
  l.insert d.index d

def deleteDevice (l : WirelessDeviceList) (d : WirelessDevice) : WirelessDeviceList :=
  l.erase d.index

def listDevices (l : WirelessDeviceList) : List WirelessDevice := l.values

/-- The first device with the address, in the order of the indices. -/
def getDeviceByMac (l : WirelessDeviceList) (macaddr : EtherAddr) : Option WirelessDevice :=
  l.values.find? (·.macaddr = macaddr)

end WirelessDeviceList

/-- An `int` that arrives as 32 bits. -/
def intOf (n : UInt32) : Int := n.toInt32.toInt

/-- The attributes of an nl80211 message that `recv_winterface_infos` uses. -/
structure Nl80211Attrs where
  ifname : Option CString
  ifindex : Option UInt32
  mac : Option EtherAddr
  iftype : Option UInt32
  txPowerLevel : Option UInt32
deriving DecidableEq

/-- A message of nl80211 about an interface, with what `ioctl` answers when it is
asked for the permanent address: the bytes of the address, none when it fails. -/
structure Report where
  attrs : Nl80211Attrs
  permAddr : Option (List UInt8)
deriving DecidableEq

/-- An RTM_NEWLINK or RTM_DELLINK message. -/
structure Link where
  ifiIndex : UInt32
  ifiType : UInt16
  ifname : Option CString
  address : Option EtherAddr

/-- What the client knows of its interfaces. -/
structure Interfaces where
  initInterfaces : Bool
  listWinterfaces : WirelessDeviceList

namespace Interfaces

def init : Interfaces := ⟨false, SortedMap.empty⟩

def getPmaddr (permAddr : Option (List UInt8)) : Option EtherAddr :=
  permAddr.bind fun bytes => if h : bytes.length = ethAlen then some ⟨bytes, h⟩ else none

/-- The body the two notifications share. -/
def registerDevice (s : Interfaces) (d : WirelessDevice) (permAddr : Option (List UInt8)) :
    Interfaces :=
  match getPmaddr permAddr with
  | none => s
  | some paddr =>
    { s with listWinterfaces := s.listWinterfaces.addDevice (d.setMachwsim paddr) }

def handleNewWinetNotification (s : Interfaces) (d : WirelessDevice)
    (permAddr : Option (List UInt8)) : Interfaces := s.registerDevice d permAddr

/-- Called for the first interface that is reported. -/
def handleInitWinetNotification (s : Interfaces) (d : WirelessDevice)
    (permAddr : Option (List UInt8)) : Interfaces := s.registerDevice d permAddr

def handleDelWinetNotification (s : Interfaces) (d : WirelessDevice) : Interfaces :=
  { s with listWinterfaces := s.listWinterfaces.deleteDevice d }

/-- The device a message of nl80211 describes. -/
def deviceOf (attrs : Nl80211Attrs) : Option WirelessDevice :=
  match attrs.ifname with
  | none => none
  | some ifname =>
    match attrs.ifindex with
    | none => none
    | some ifindex =>
      match attrs.mac with
      | none => none
      | some macaddr =>
        match attrs.iftype with
        | none => none
        | some iftype =>
          some (WirelessDevice.ofMac ifname (intOf ifindex) (intOf iftype) macaddr
            (intOf (attrs.txPowerLevel.getD 0)))

def recvWinterfaceInfos (s : Interfaces) (r : Report) : Interfaces :=
  match deviceOf r.attrs with
  | none => s
  | some inetdevice =>
    if s.initInterfaces then s.handleNewWinetNotification inetdevice r.permAddr
    else
      { s.handleInitWinetNotification inetdevice r.permAddr with initInterfaces := true }

/-- Whether `new_net_interface` asks nl80211 about the interface. The variable
`macaddr` holds what the stack holds when the message has no address. -/
def asksInfos (link : Link) (stack : EtherAddr) : Bool :=
  match link.ifname with
  | none => false
  | some name =>
    (WirelessDevice.ofMac name (intOf link.ifiIndex) link.ifiType.toNat
      (link.address.getD stack) 0).checkifWirelessDevice

/-- `new_net_interface`, with the answer of nl80211 to `get_winterface_infos`. -/
def newNetInterface (s : Interfaces) (link : Link) (stack : EtherAddr) (reply : Option Report) :
    Interfaces :=
  if asksInfos link stack then
    match reply with
    | none => s
    | some r => s.recvWinterfaceInfos r
  else s

def delNetInterface (s : Interfaces) (link : Link) : Interfaces :=
  match link.ifname with
  | none => s
  | some name =>
    match link.address with
    | none => s
    | some macaddr =>
      let inetdevice :=
        WirelessDevice.ofMac name (intOf link.ifiIndex) link.ifiType.toNat macaddr 0
      if inetdevice.checkifWirelessDevice then s.handleDelWinetNotification inetdevice else s

/-- What the kernel tells the client. A dump is a sequence of reports. -/
inductive Event where
  | report (r : Report)
  | newLink (link : Link) (stack : EtherAddr) (reply : Option Report)
  | delLink (link : Link)

def handle (s : Interfaces) : Event → Interfaces
  | .report r => s.recvWinterfaceInfos r
  | .newLink link stack reply => s.newNetInterface link stack reply
  | .delLink link => s.delNetInterface link

end Interfaces

end Vwifi
