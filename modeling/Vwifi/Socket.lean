import Vwifi.Kernel

/-!
# Sockets, the growing buffer and the signal framing

`CSocket`, `CDynBuffer` and the two framing functions of `CWifi`. A missing
result (`none`) is `SOCKET_ERROR`; sizes that the source keeps in a signed
variable are integers here, because a peer can make them negative.
-/

namespace Vwifi

set_option autoImplicit false

open LittleEndian

/-- `SOCKET_ERROR`, where a function returns it among sizes. -/
def socketError : Int := -1

/-! ## CDynBuffer -/

/-- `Size` is the length of the block `Buffer` points to. -/
structure CDynBuffer where
  buffer : List UInt8

namespace CDynBuffer

def size (b : CDynBuffer) : Int := b.buffer.length

def allocate (heap : Nat → UInt8) (b : CDynBuffer) (size : Int) (keepValues : Bool) :
    CDynBuffer :=
  let block := (List.range size.toNat).map heap
  if keepValues then ⟨b.buffer ++ block.drop b.buffer.length⟩ else ⟨block⟩

def neededSize (heap : Nat → UInt8) (b : CDynBuffer) (size : Int) (keepValues : Bool) :
    CDynBuffer :=
  if size ≤ b.size then b else b.allocate heap size keepValues

/-- Storing bytes at an offset of the block. -/
def store (b : CDynBuffer) (offset : Nat) (bytes : List UInt8) : CDynBuffer :=
  ⟨b.buffer.take offset ++ bytes ++ b.buffer.drop (offset + bytes.length)⟩

end CDynBuffer

/-! ## CSocket -/

namespace CSocket

def send (k : Kernel) (d : TDescriptor) (data : List UInt8) : Option Nat × Kernel :=
  let r := k.send d data
  (if r.1 ≠ data.length then none else some r.1, r.2)

/-- The bytes stored at `data`, none for `SOCKET_ERROR`. -/
def read (k : Kernel) (d : TDescriptor) (sizeOfData : Nat) : Option (List UInt8) × Kernel :=
  let r := k.recv d sizeOfData
  (if r.1 = [] then none else some r.1, r.2)

/-- The `while( sizeToRead > 0 )` loop, writing at offset `offset`. Each successful
`Read` brings at least one byte, so `sizeToRead` iterations are enough. -/
def readLoop (d : TDescriptor) : Nat → Nat → Nat → Kernel → CDynBuffer →
    Bool × Kernel × CDynBuffer
  | 0, _, _, k, b => (true, k, b)
  | fuel + 1, offset, sizeToRead, k, b =>
    if 0 < sizeToRead then
      match read k d sizeToRead with
      | (none, k) => (false, k, b)
      | (some bytes, k) =>
        readLoop d fuel (offset + bytes.length) (sizeToRead - bytes.length) k (b.store offset bytes)
    else (true, k, b)

def readEqualSize (k : Kernel) (d : TDescriptor) (data : CDynBuffer) (byteAlreadyRead : Nat)
    (sizeToRead : Int) : Int × Kernel × CDynBuffer :=
  let data := data.neededSize k.heap sizeToRead (byteAlreadyRead ≠ 0)
  let left := (sizeToRead - byteAlreadyRead).toNat
  match readLoop d left byteAlreadyRead left k data with
  | (true, k, data) => (sizeToRead, k, data)
  | (false, k, data) => (socketError, k, data)

end CSocket

/-! ## CWifi framing -/

namespace CWifi

/-- `int sizeTotal = ((struct nlmsghdr *)buffer)->nlmsg_len`: the first four
bytes, unsigned, converted to a signed integer. -/
def nlmsgLen (message : List UInt8) : Int :=
  (UInt32.ofNat (value (message.take 4))).toInt32.toInt

def sendSignalWithSocket (k : Kernel) (d : TDescriptor) (power : TPower) (data : List UInt8) :
    Option Nat × Kernel :=
  match CSocket.send k d [power.toUInt8] with
  | (none, k) => (none, k)
  | (some _, k) => CSocket.send k d data

structure Received where
  valread : Int
  power : TPower
  buffer : CDynBuffer
  kernel : Kernel

def recvSignalWithSocket (k : Kernel) (d : TDescriptor) (power : TPower) (buffer : CDynBuffer) :
    Received :=
  match CSocket.read k d 1 with
  | (none, k) => ⟨socketError, power, buffer, k⟩
  | (some bytes, k) =>
    let power := (bytes.headD 0).toInt8
    match CSocket.readEqualSize k d buffer 0 sizeofNlmsghdr with
    | (sizeRead, k, buffer) =>
      if sizeRead = socketError then ⟨socketError, power, buffer, k⟩
      else
        let sizeTotal := nlmsgLen buffer.buffer
        if mtu < sizeTotal then ⟨socketError, power, buffer, k⟩
        else
          match CSocket.readEqualSize k d buffer sizeRead.toNat sizeTotal with
          | (valread, k, buffer) => ⟨valread, power, buffer, k⟩

end CWifi

end Vwifi
