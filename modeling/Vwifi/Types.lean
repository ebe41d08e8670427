import Mathlib.Data.List.TakeWhile
import Vwifi.Lib.LittleEndian

/-!
# Basic data of the server and of its control program

Fixed-width numbers keep the width of the source. Text is a C string: bytes
without a zero byte. A guest record carries the two facts its constructors
check, so that no later module has to prove them again.
-/

namespace Vwifi

set_option autoImplicit false

open LittleEndian

abbrev TValue := Int32
abbrev TCID := UInt32
abbrev TDescriptor := Nat
abbrev TIndex := Nat
abbrev TPort := UInt16
abbrev TPower := Int8
abbrev TFrequency := UInt32
/-- A C `double`, as its 64 bits. -/
abbrev TScale := UInt64
abbrev TDistance := UInt64

def tPowerMax : TPower := -10
def tPowerMin : TPower := -128

/-- The smallest CID of a guest: 1 and 2 are the hypervisor and the host. -/
def tcidGuestMin : TCID := 3

def wifiMaxDeconnectedClient : Nat := 15
def maxSizeName : Nat := 12
def defaultSizeBuffer : Nat := 1024

/-- Maximum transmission unit, from include/linux/ieee80211.h. -/
def mtu : Int := 2352

/-- `sizeof(struct nlmsghdr)` -/
def sizeofNlmsghdr : Nat := 16

inductive TOrder where
  | torderNo | torderList | torderShow | torderChangeCoordinate | torderSetName
  | torderPacketLoss | torderStatus | torderDistanceBetweenCid | torderSetScale
  | torderCloseAllClient
deriving DecidableEq, Repr

/-- The value the enumeration has on the wire. -/
def TOrder.code : TOrder → Nat
  | torderNo => 0
  | torderList => 1
  | torderShow => 2
  | torderChangeCoordinate => 3
  | torderSetName => 4
  | torderPacketLoss => 5
  | torderStatus => 6
  | torderDistanceBetweenCid => 7
  | torderSetScale => 8
  | torderCloseAllClient => 9

/-- The case of `switch( order )` a received value falls into; a value outside
the enumeration falls into none and behaves as `TORDER_NO`. -/
def TOrder.ofCode : Nat → TOrder
  | 1 => torderList
  | 2 => torderShow
  | 3 => torderChangeCoordinate
  | 4 => torderSetName
  | 5 => torderPacketLoss
  | 6 => torderStatus
  | 7 => torderDistanceBetweenCid
  | 8 => torderSetScale
  | 9 => torderCloseAllClient
  | _ => torderNo

@[simp] theorem TOrder.ofCode_code (o : TOrder) : TOrder.ofCode o.code = o := by
  cases o <;> rfl

/-! ## C strings -/

structure CString where
  bytes : List UInt8
  noNul : 0 ∉ bytes
deriving DecidableEq

namespace CString

def empty : CString := ⟨[], List.not_mem_nil⟩

/-- `string name(buffer)`: the bytes up to the first zero byte. -/
def ofBuffer (buffer : List UInt8) : CString where
  bytes := buffer.takeWhile (· ≠ 0)
  noNul := by
    intro h
    simpa using List.mem_takeWhile_imp h

/-- `name.resize(size)` of a longer string. -/
def resize (name : CString) (size : Nat) : CString where
  bytes := name.bytes.take size
  noNul := fun h => name.noNul (List.mem_of_mem_take h)

theorem ext_bytes {a b : CString} (h : a.bytes = b.bytes) : a = b := by
  cases a
  cases b
  cases h
  rfl

/-- A buffer that holds a string and its terminator reads as that string. -/
theorem ofBuffer_append_nul (name : CString) (rest : List UInt8) :
    ofBuffer (name.bytes ++ 0 :: rest) = name := by
  apply ext_bytes
  have hall : ∀ b ∈ name.bytes, decide (b ≠ 0) = true := by
    intro b hb
    rw [decide_eq_true_eq]
    rintro rfl
    exact name.noNul hb
  simp only [ofBuffer, List.takeWhile_append_of_pos hall]
  simp

/-- A buffer with a zero byte is read up to it, whatever follows. -/
theorem ofBuffer_append {bytes : List UInt8} (h : 0 ∈ bytes) (rest : List UInt8) :
    ofBuffer (bytes ++ rest) = ofBuffer bytes ∧ (ofBuffer bytes).bytes.length < bytes.length := by
  have hne : (bytes.takeWhile (· ≠ 0)).length ≠ bytes.length := by
    intro hlen
    have hall := (List.takeWhile_prefix (l := bytes) (· ≠ 0)).eq_of_length hlen
    rw [← hall] at h
    simpa using List.mem_takeWhile_imp h
  constructor
  · apply ext_bytes
    simp only [ofBuffer]
    rw [List.takeWhile_append, if_neg hne]
  · exact Nat.lt_of_le_of_ne (List.takeWhile_prefix _).length_le hne

/-- Without a zero byte the string goes on behind the buffer. -/
theorem length_le_ofBuffer_append {bytes : List UInt8} (h : 0 ∉ bytes) (rest : List UInt8) :
    bytes.length ≤ (ofBuffer (bytes ++ rest)).bytes.length := by
  have hall : ∀ b ∈ bytes, decide (b ≠ 0) = true := by
    intro b hb
    rw [decide_eq_true_eq]
    rintro rfl
    exact h hb
  simp only [ofBuffer, List.takeWhile_append_of_pos hall, List.length_append]
  exact Nat.le_add_right _ _

theorem resize_of_length_le {name : CString} {size : Nat} (h : name.bytes.length ≤ size) :
    name.resize size = name := ext_bytes (List.take_of_length_le h)

end CString

/-! ## Coordinates -/

structure CCoordinate where
  x : TValue
  y : TValue
  z : TValue
deriving DecidableEq, Repr

namespace CCoordinate

/-- `CCoordinate::CCoordinate()` -/
def zero : CCoordinate := ⟨0, 0, 0⟩

def valueBytes (v : TValue) : List UInt8 := image 4 v.toUInt32.toNat

def bytesValue (bytes : List UInt8) : TValue := (UInt32.ofNat (value bytes)).toInt32

/-- The memory image of the three components. -/
def bytes (c : CCoordinate) : List UInt8 := valueBytes c.x ++ valueBytes c.y ++ valueBytes c.z

def ofBytes (b : List UInt8) : CCoordinate :=
  ⟨bytesValue (b.take 4), bytesValue ((b.drop 4).take 4), bytesValue ((b.drop 8).take 4)⟩

@[simp] theorem valueBytes_length (v : TValue) : (valueBytes v).length = 4 := image_length _ _

@[simp] theorem bytes_length (c : CCoordinate) : c.bytes.length = 12 := by
  simp [bytes]

theorem bytesValue_valueBytes (v : TValue) : bytesValue (valueBytes v) = v := by
  have hlt : v.toUInt32.toNat < 256 ^ 4 := v.toUInt32.toNat_lt
  simp [bytesValue, valueBytes, value_image_of_lt hlt]

theorem ofBytes_bytes (c : CCoordinate) : ofBytes c.bytes = c := by
  have hx : c.bytes.take 4 = valueBytes c.x := by
    rw [bytes, List.append_assoc, List.take_left' (valueBytes_length c.x)]
  have hy : (c.bytes.drop 4).take 4 = valueBytes c.y := by
    rw [bytes, List.append_assoc, List.drop_left' (valueBytes_length c.x),
      List.take_left' (valueBytes_length c.y)]
  have hz : (c.bytes.drop 8).take 4 = valueBytes c.z := by
    rw [bytes, List.drop_left' (by simp), List.take_of_length_le (by simp)]
  rw [ofBytes, hx, hy, hz, bytesValue_valueBytes, bytesValue_valueBytes, bytesValue_valueBytes]

end CCoordinate

/-! ## Guest records -/

/-- What the server knows of a guest. `cidOk` is the assertion of `SetCid` and
`nameOk` the truncation made by `SetName`. -/
structure CInfoWifi extends CCoordinate where
  cid : TCID
  name : CString
  cidOk : cid = 0 ∨ tcidGuestMin ≤ cid
  nameOk : name.bytes.length ≤ maxSizeName
deriving DecidableEq

namespace CInfoWifi

/-- `CInfoWifi::CInfoWifi()` -/
def default : CInfoWifi where
  toCCoordinate := CCoordinate.zero
  cid := 0
  name := CString.empty
  cidOk := Or.inl rfl
  nameOk := Nat.zero_le _

/-- `assert( cid==0 || cid >=TCID_GUEST_MIN )`: no result when it fails. -/
def setCid (w : CInfoWifi) (cid : TCID) : Option CInfoWifi :=
  if h : cid = 0 ∨ tcidGuestMin ≤ cid then some { w with cid := cid, cidOk := h } else none

def set (w : CInfoWifi) (coo : CCoordinate) : CInfoWifi := { w with toCCoordinate := coo }

def setName (w : CInfoWifi) (name : CString) : CInfoWifi :=
  if h : name.bytes.length ≤ maxSizeName then { w with name := name, nameOk := h }
  else
    { w with
      name := name.resize maxSizeName
      nameOk := List.length_take_le _ _ }

theorem setCid_cid {w w' : CInfoWifi} {cid : TCID} (h : w.setCid cid = some w') : w'.cid = cid := by
  unfold setCid at h
  split at h
  · cases h
    rfl
  · cases h

@[simp] theorem set_cid (w : CInfoWifi) (coo : CCoordinate) : (w.set coo).cid = w.cid := rfl

@[simp] theorem setName_cid (w : CInfoWifi) (name : CString) : (w.setName name).cid = w.cid := by
  unfold setName
  split <;> rfl

@[simp] theorem setName_toCCoordinate (w : CInfoWifi) (name : CString) :
    (w.setName name).toCCoordinate = w.toCCoordinate := by
  unfold setName
  split <;> rfl

theorem setName_name {w : CInfoWifi} {name : CString} (h : name.bytes.length ≤ maxSizeName) :
    (w.setName name).name = name := by
  simp [setName, h]

theorem setName_resize (w : CInfoWifi) (name : CString) :
    w.setName (name.resize maxSizeName) = w.setName name := by
  by_cases h : name.bytes.length ≤ maxSizeName
  · rw [CString.resize_of_length_le h]
  · have hle : (name.resize maxSizeName).bytes.length ≤ maxSizeName := List.length_take_le _ _
    rw [setName, setName, dif_pos hle, dif_neg h]

theorem name_setName (w : CInfoWifi) (name : CString) :
    (w.setName name).name = name.resize maxSizeName := by
  rw [← setName_resize, setName_name (List.length_take_le _ _)]

/-- `CInfoWifi(cid,coo)` -/
def ofCoordinate (cid : TCID) (coo : CCoordinate) : Option CInfoWifi :=
  (default.set coo).setCid cid

end CInfoWifi

/-! ## Registered sockets -/

structure CInfoSocket where
  descriptor : TDescriptor
  enable : Bool
deriving DecidableEq, Repr

namespace CInfoSocket

def disableIt (s : CInfoSocket) : CInfoSocket := { s with enable := false }

end CInfoSocket

end Vwifi
