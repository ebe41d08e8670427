import Vwifi.CtrlClient
import Vwifi.Tools
import Vwifi.Lib.Options

/-!
# The arguments of the control program

`main` of vwifi-ctrl up to the order it sends, one `Send` for each field, and up to the
second order that `show` leads to. What it displays on the way is left out, and the
connection is there. The C library rounds to a `double` by `round`.
-/

namespace Vwifi

set_option autoImplicit false

open LittleEndian Options

def text (s : String) : List UInt8 := s.toList.map Char.toUInt8

/-- `! strcmp( s , arg )` -/
def CString.is (arg : CString) (s : String) : Bool := arg.bytes = text s

def tolower (c : UInt8) : UInt8 := if 'A'.toUInt8 ≤ c ∧ c ≤ 'Z'.toUInt8 then c + 32 else c

/-- `! strcasecmp( arg , s )` -/
def CString.isAnyCase (arg : CString) (s : String) : Bool :=
  arg.bytes.map tolower = (text s).map tolower

/-- `scale <= 0` of a `double`. -/
def notPositive (scale : TScale) : Bool :=
  scale = 0 ∨ 0x8000000000000000 ≤ scale ∧ scale ≤ 0xFFF0000000000000

def defaultAddressIP : CString := ⟨text "127.0.0.1", by decide⟩

def defaultCtrlPort : TPort := 8214

namespace Ctrl

abbrev Fields := List (List UInt8)

/-- An error text, and whether the help follows it. The program returns 1. -/
structure Refusal where
  message : String
  help : Bool

/-- An end that has nothing to do with an order. -/
inductive Ended where
  | version
  | help (err : Int)
  /-- By an exception of `std::stoi`. -/
  | terminated (e : StoiError)

/-- What is sent over one connection, and what over a second one, once the answer to the
first has been read. -/
structure Errand where
  fields : Fields
  next : List (List UInt8) → Option Fields

inductive Outcome where
  | ended (e : Ended)
  | refused (r : Refusal)
  | unknownOrder (order : CString)
  | sends (ip : CString) (port : TPort) (errand : Errand)

/-! ## The orders -/

def orderField (order : TOrder) : List UInt8 := image 4 order.code

def cidField (cid : TCID) : List UInt8 := image 4 cid.toNat

def wrongNumber (order : String) : Refusal :=
  ⟨"Error : " ++ order ++ " : the number of parameter is uncorrect", true⟩

/-- The CID among the parameters of an order, with what the two errors call it. -/
def guestCid (order integer guest : String) (arg : CString) : Except Refusal TCID :=
  if isPositiveInt arg = false then
    .error ⟨"Error : " ++ order ++ " : the " ++ integer ++ " is not an integer", false⟩
  else
    let cid := (atoi arg).toUInt32
    if cid < tcidGuestMin then
      .error ⟨"Error : " ++ order ++ " : the " ++ guest ++
        " must be greater than or equal to " ++ toString tcidGuestMin, false⟩
    else .ok cid

def notInteger (coordinate : String) : Refusal :=
  ⟨"Error : set : the " ++ coordinate ++ " coordinate is not an integer", false⟩

/-- Behind the checks of `ChangeCoordinate`. -/
def coordinateFields (cid : TCID) (coo : CCoordinate) : Fields :=
  [orderField .torderChangeCoordinate, cidField cid, coo.bytes]

def changeCoordinate : List CString → Except Refusal Fields
  | [cid, x, y, z] =>
    match guestCid "set" "CID" "CID" cid with
    | .error r => .error r
    | .ok cid =>
      if isInt x = false then .error (notInteger "x")
      else if isInt y = false then .error (notInteger "y")
      else if isInt z = false then .error (notInteger "z")
      else .ok (coordinateFields cid ⟨atoi x, atoi y, atoi z⟩)
  | _ => .error (wrongNumber "set")

/-- Behind the checks of `SetName`: the size and the name with its terminator. -/
def nameFields (cid : TCID) (name : CString) : Fields :=
  [orderField .torderSetName, cidField cid, image 4 name.bytes.length, name.bytes ++ [0]]

def setName : List CString → Except Refusal Fields
  | [cid, name] =>
    match guestCid "setname" "CID" "CID" cid with
    | .error r => .error r
    | .ok cid =>
      .ok (nameFields cid
        (if maxSizeName < name.bytes.length then name.resize maxSizeName else name))
  | _ => .error (wrongNumber "setname")

def lossFields (value : Nat) : Fields := [orderField .torderPacketLoss, image 4 value]

def changePacketLoss : List CString → Except Refusal Fields
  | [value] =>
    if value.is "yes" then .ok (lossFields 1)
    else if value.is "no" then .ok (lossFields 0)
    else .error ⟨"Error : loss : the value can only be \"yes\" or \"no\"", false⟩
  | _ => .error (wrongNumber "loss")

def distanceFields (cid1 cid2 : TCID) : Fields :=
  [orderField .torderDistanceBetweenCid, cidField cid1, cidField cid2]

def distanceBetweenCid : List CString → Except Refusal Fields
  | [cid1, cid2] =>
    match guestCid "distance" "CID 1" "CID 1" cid1 with
    | .error r => .error r
    | .ok cid1 =>
      match guestCid "distance" "CID 2" "CID2" cid2 with
      | .error r => .error r
      | .ok cid2 => .ok (distanceFields cid1 cid2)
  | _ => .error (wrongNumber "distance")

def atof (round : Rat → TScale) (arg : CString) : TScale := round ((strtod arg.bytes).getD 0)

def scaleFields (scale : TScale) : Fields := [orderField .torderSetScale, image 8 scale.toNat]

def setScale (round : Rat → TScale) : List CString → Except Refusal Fields
  | [value] =>
    if isIntOrFloat value = false then
      .error ⟨"Error : scale : the format of the value is uncorrect", false⟩
    else if notPositive (atof round value) then
      .error ⟨"Error : scale : the value must be greater than 0", false⟩
    else .ok (scaleFields (atof round value))
  | _ => .error (wrongNumber "scale")

/-- An order after which the program is at its end. -/
def Errand.only (fields : Fields) : Errand := ⟨fields, fun _ => none⟩

/-- `AskShow` calls `AskList` when it has read its answer. -/
def showErrand (stack : ReplyStack) : Errand where
  fields := [orderField .torderShow]
  next := fun answer =>
    if (askShow stack answer).err = 0 then some [orderField .torderList] else none

/-! ## The program -/

/-- The global variables and `param_cmd`. -/
structure Arguments where
  ip : CString
  port : TPort
  paramCmd : List CString

def Arguments.default : Arguments := ⟨defaultAddressIP, defaultCtrlPort, []⟩

/-- One turn of the loop over the arguments. -/
def takeArgument (a : Arguments) (arg : CString) (next : Option CString) :
    Taken Arguments Ended :=
  if arg.is "-v" || arg.is "--version" then .stopped .version
  else if arg.is "-h" || arg.is "--help" then .stopped (.help 1)
  else
    match if arg.is "-p" || arg.is "--port" then next.filter isPositiveInt else none with
    | some value =>
      match stoi value with
      | .error e => .stopped (.terminated e)
      | .ok port => .withNext { a with port := UInt16.ofInt port }
    | none =>
      match if arg.is "-i" || arg.is "--ip" then next else none with
      | some value => .withNext { a with ip := value }
      | none => .alone { a with paramCmd := a.paramCmd ++ [arg] }

/-- The function of an order, when there is one: `AskList`, `AskShow`, `AskStatus` and
`CloseAllClient` do not look at the parameters. -/
def dispatch (round : Rat → TScale) (stack : ReplyStack) (order : CString) (args : List CString) :
    Option (Except Refusal Errand) :=
  if order.isAnyCase "ls" then some (.ok (.only [orderField .torderList]))
  else if order.isAnyCase "set" then some ((changeCoordinate args).map .only)
  else if order.isAnyCase "setname" then some ((setName args).map .only)
  else if order.isAnyCase "loss" then some ((changePacketLoss args).map .only)
  else if order.isAnyCase "show" then some (.ok (showErrand stack))
  else if order.isAnyCase "status" then some (.ok (.only [orderField .torderStatus]))
  else if order.isAnyCase "distance" then some ((distanceBetweenCid args).map .only)
  else if order.isAnyCase "scale" then some ((setScale round args).map .only)
  else if order.isAnyCase "close" then some (.ok (.only [orderField .torderCloseAllClient]))
  else none

/-- The arguments are those behind the name of the program. -/
def main (round : Rat → TScale) (stack : ReplyStack) (argv : List CString) : Outcome :=
  match walk takeArgument Arguments.default argv with
  | .error e => .ended e
  | .ok a =>
    match a.paramCmd with
    | [] => .ended (.help 0)
    | order :: args =>
      match dispatch round stack order args with
      | none => .unknownOrder order
      | some (.error r) => .refused r
      | some (.ok errand) => .sends a.ip a.port errand

end Ctrl

end Vwifi
