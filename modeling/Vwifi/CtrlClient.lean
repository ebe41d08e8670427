import Vwifi.CtrlServer

/-!
# The answers as the control program reads them

`AskList`, `GetCInfoWifi` and `AskStatus` of vwifi-ctrl, from the moment the
order is sent. The loops of `AskList` go on when `GetCInfoWifi` fails: it
returns 1, and the test is for `SOCKET_ERROR`. A missing result is a failed
assertion of `SetCid`, or a name that is read past its array.
-/

namespace Vwifi

set_option autoImplicit false

open LittleEndian Segmented

/-- An `int`. -/
def Var.toInt (v : Var) : Int := (UInt32.ofNat v.toNat).toInt32.toInt

/-- The local variables of `AskList` and `GetCInfoWifi` that `Read` fills. -/
inductive AskLocal where
  | number | cid | sizeName | strName

abbrev AskFrame := AskLocal → Nat → UInt8

/-- What the stack holds when a function begins, after so many calls of `Read`: each
call of `GetCInfoWifi` may find something else. -/
abbrev AskStack := Nat → AskFrame

/-- What lives across the loops: the connection with the sizes that were asked
for and received, and the variables `number` and `info`. -/
structure Ask where
  inbox : List (List UInt8)
  reads : List (Nat × Nat)
  number : Var
  info : CInfoWifi

namespace Ask

def uninitialised (frame : AskFrame) (l : AskLocal) (size : Nat) : Var :=
  ⟨(List.range size).map (frame l), 0⟩

/-- The variables of `AskList` when the order has been sent. -/
def start (stack : AskStack) (inbox : List (List UInt8)) : Ask :=
  ⟨inbox, [], uninitialised (stack 0) .number 4, CInfoWifi.default⟩

/-- `CSocketClient::Read` of `size` bytes to the start of `v`. -/
def read (a : Ask) (v : Var) (size : Nat) : Option Var × Ask :=
  let delivery := deliver size a.inbox
  (if delivery.1 = [] then none
    else some ⟨delivery.1 ++ v.bytes.drop delivery.1.length, delivery.1.length⟩,
    { a with inbox := delivery.2, reads := a.reads ++ [(size, delivery.1.length)] })

/-- The end of `GetCInfoWifi`: the record is stored. -/
def store (a : Ask) (cid : TCID) (coo : CCoordinate) (strName : List UInt8) : Option (Int × Ask) :=
  match a.info.setCid cid with
  | none => none
  | some info =>
    let name := CString.ofBuffer strName
    if name.bytes.length = strName.length then none
    else some (0, { a with info := (info.set coo).setName name })

def getCInfoWifi (frame : AskFrame) (a : Ask) : Option (Int × Ask) :=
  match a.read (uninitialised frame .cid 4) 4 with
  | (none, a) => some (1, a)
  | (some cid, a) =>
    match a.read ⟨CCoordinate.zero.bytes, 0⟩ 12 with
    | (none, a) => some (1, a)
    | (some coo, a) =>
      match a.read (uninitialised frame .sizeName 4) 4 with
      | (none, a) => some (1, a)
      | (some sizeName, a) =>
        let size := sizeName.toInt
        let strName := uninitialised frame .strName (maxSizeName + 1)
        if maxSizeName < size then some (1, a)
        else if 0 < size then
          match a.read strName (size + 1).toNat with
          | (none, a) => some (1, a)
          | (some strName, a) => a.store cid.toCID (CCoordinate.ofBytes coo.bytes) strName.bytes
        else a.store cid.toCID (CCoordinate.ofBytes coo.bytes) (0 :: strName.bytes.tail)

/-- One of the two loops, with the records it displays; `false` is `return 1`. -/
def askInfos (stack : AskStack) : Nat → Ask → Option (Bool × List CInfoWifi × Ask)
  | 0, a => some (true, [], a)
  | n + 1, a =>
    match a.getCInfoWifi (stack a.reads.length) with
    | none => none
    | some (err, a) =>
      if err = socketError then some (false, [], a)
      else
        (askInfos stack n a).map fun r => (r.1, a.info :: r.2.1, r.2.2)

/-- The number of one registry and its records. -/
def askRegistry (stack : AskStack) (a : Ask) : Option (Bool × List CInfoWifi × Ask) :=
  match a.read a.number 4 with
  | (none, a) => some (false, [], a)
  | (some number, a) => askInfos stack number.toNat { a with number := number }

end Ask

/-- What `AskList` has displayed when it returns, and its result. -/
structure Asked where
  spies : List CInfoWifi
  clients : List CInfoWifi
  err : Int
  ask : Ask

/-- The bytes `AskList` sends. -/
def askListOrder : List UInt8 := image 4 TOrder.torderList.code

def askList (stack : AskStack) (inbox : List (List UInt8)) : Option Asked :=
  match (Ask.start stack inbox).askRegistry stack with
  | none => none
  | some (false, spies, a) => some ⟨spies, [], 1, a⟩
  | some (true, spies, a) =>
    match a.askRegistry stack with
    | none => none
    | some (false, clients, a) => some ⟨spies, clients, 1, a⟩
    | some (true, clients, a) => some ⟨spies, clients, 0, a⟩

/-! ## The status -/

/-- The local variables of `AskStatus` that `Read` fills; `port` is filled twice. -/
inductive StatusLocal where
  | loss | scale | port | size | spyIsConnected

abbrev StatusStack := StatusLocal → Nat → UInt8

/-- `AskStatus` at work: the connection with the sizes that were asked for and
received, the variable that is used again, what has been displayed, and the
result. -/
structure AskedStatus where
  inbox : List (List UInt8)
  reads : List (Nat × Nat)
  port : Var
  loss : Option Bool
  scale : Option TScale
  portVHOST : Option TPort
  portINET : Option TPort
  sizeOfDisconnected : Option TIndex
  spyIsConnected : Option Bool
  err : Int

namespace AskedStatus

def uninitialised (stack : StatusStack) (l : StatusLocal) (size : Nat) : Var :=
  ⟨(List.range size).map (stack l), 0⟩

def start (stack : StatusStack) (inbox : List (List UInt8)) : AskedStatus :=
  ⟨inbox, [], uninitialised stack .port 2, none, none, none, none, none, none, 1⟩

/-- `CSocketClient::Read` into the variable `v`. -/
def read (a : AskedStatus) (v : Var) : Option Var × AskedStatus :=
  let delivery := deliver v.bytes.length a.inbox
  (if delivery.1 = [] then none
    else some ⟨delivery.1 ++ v.bytes.drop delivery.1.length, delivery.1.length⟩,
    { a with inbox := delivery.2, reads := a.reads ++ [(v.bytes.length, delivery.1.length)] })

def boolOf (v : Var) : Bool := v.toNat ≠ 0

def portOf (v : Var) : TPort := UInt16.ofNat v.toNat

end AskedStatus

/-- The bytes `AskStatus` sends. -/
def askStatusOrder : List UInt8 := image 4 TOrder.torderStatus.code

open AskedStatus in
def askStatus (stack : StatusStack) (inbox : List (List UInt8)) : AskedStatus :=
  match (start stack inbox).read (uninitialised stack .loss 1) with
  | (none, a) => a
  | (some loss, a) =>
    let a := { a with loss := some (boolOf loss) }
    match a.read (uninitialised stack .scale 8) with
    | (none, a) => a
    | (some scale, a) =>
      let a := { a with scale := some (UInt64.ofNat scale.toNat) }
      match a.read a.port with
      | (none, a) => a
      | (some port, a) =>
        let a := { a with port := port, portVHOST := some (portOf port) }
        match a.read a.port with
        | (none, a) => a
        | (some port, a) =>
          let a := { a with port := port, portINET := some (portOf port) }
          match a.read (uninitialised stack .size 4) with
          | (none, a) => a
          | (some size, a) =>
            let a := { a with sizeOfDisconnected := some size.toNat }
            match a.read (uninitialised stack .spyIsConnected 1) with
            | (none, a) => a
            | (some spyIsConnected, a) =>
              { a with spyIsConnected := some (boolOf spyIsConnected), err := 0 }

/-! ## The questions with short answers -/

/-- The local variables of `DistanceBetweenCID` and `AskShow` that `Read` fills. -/
inductive ReplyLocal where
  | codeError | distance | loss | scale | spyIsConnected

abbrev ReplyStack := ReplyLocal → Nat → UInt8

def ReplyStack.uninitialised (stack : ReplyStack) (l : ReplyLocal) (size : Nat) : Var :=
  ⟨(List.range size).map (stack l), 0⟩

/-- `CSocketClient::Read` into the variable `v`. -/
def readReply (v : Var) (inbox : List (List UInt8)) : Option Var × List (List UInt8) :=
  let delivery := deliver v.bytes.length inbox
  (if delivery.1 = [] then none
    else some ⟨delivery.1 ++ v.bytes.drop delivery.1.length, delivery.1.length⟩, delivery.2)

/-- What `DistanceBetweenCID` displays; nothing but `distance` is a success. -/
inductive AskedDistance where
  | failed
  | unknownCid1
  | unknownCid2
  | distance (metres : TDistance)
deriving DecidableEq

def askDistance (stack : ReplyStack) (inbox : List (List UInt8)) : AskedDistance :=
  match readReply (stack.uninitialised .codeError 4) inbox with
  | (none, _) => .failed
  | (some codeError, inbox) =>
    if codeError.toInt = -1 then .unknownCid1
    else if codeError.toInt = -2 then .unknownCid2
    else
      match readReply (stack.uninitialised .distance 8) inbox with
      | (none, _) => .failed
      | (some distance, _) => .distance (UInt64.ofNat distance.toNat)

/-- What `AskShow` displays before it calls `AskList`; `err` is that of this half. -/
structure AskedShow where
  loss : Option Bool
  scale : Option TScale
  spyIsConnected : Option Bool
  err : Int
deriving DecidableEq

def askShow (stack : ReplyStack) (inbox : List (List UInt8)) : AskedShow :=
  match readReply (stack.uninitialised .loss 1) inbox with
  | (none, _) => ⟨none, none, none, 1⟩
  | (some loss, inbox) =>
    let loss := some (AskedStatus.boolOf loss)
    match readReply (stack.uninitialised .scale 8) inbox with
    | (none, _) => ⟨loss, none, none, 1⟩
    | (some scale, inbox) =>
      let scale := some (UInt64.ofNat scale.toNat)
      match readReply (stack.uninitialised .spyIsConnected 1) inbox with
      | (none, _) => ⟨loss, scale, none, 1⟩
      | (some spyIsConnected, _) => ⟨loss, scale, some (AskedStatus.boolOf spyIsConnected), 0⟩

end Vwifi
