import Vwifi.Kernel

/-!
# Signal levels

The integer part of the radio model. Floating point arithmetic and the parsing
of the netlink attributes are outside of the program: `Medium` stands for them,
and nothing that is proved of the server depends on which one it is. Levels are
computed in `int`, which wraps.
-/

namespace Vwifi

set_option autoImplicit false

structure Medium where
  /-- `Scale*sqrt(n)` -/
  scaledSqrt : TScale → TValue → TDistance
  /-- `ConstanteC+20*(log10(frequency)-3)+20*(log10(distance)-3)`, converted to `int` -/
  pathLoss : TDistance → TFrequency → Int32
  /-- What the slot `HWSIM_ATTR_FREQ` leads to after `genlmsg_parse`. -/
  freqAttr : List UInt8 → Option TFrequency

/-- A medium without distances. -/
def Medium.uniform : Medium := ⟨fun _ _ => 0, fun _ _ => 0, fun _ => none⟩

def defaultFrequency : TFrequency := 2412

def CCoordinate.distanceWith (medium : Medium) (scale : TScale) (a b : CCoordinate) : TDistance :=
  medium.scaledSqrt scale
    ((a.x - b.x) * (a.x - b.x) + (a.y - b.y) * (a.y - b.y) + (a.z - b.z) * (a.z - b.z))

namespace CWifi

variable (medium : Medium)

def getFrequency (nlh : List UInt8) : TFrequency :=
  match medium.freqAttr nlh with
  | some frequency => frequency
  | none => defaultFrequency

-- `distance == 0` holds of both zeros, which differ in the sign bit
def attenuation (distance : TDistance) (frequency : TFrequency) : Int32 :=
  if distance &&& 0x7FFFFFFFFFFFFFFF = 0 then 0 else medium.pathLoss distance frequency

def boundedPower (power : Int32) : TPower :=
  if power < tPowerMin.toInt32 then tPowerMin
  else if power > tPowerMax.toInt32 then tPowerMax
  else power.toInt8

def packetIsLost (k : Kernel) (signalLevel : TPower) : Bool × Kernel :=
  let r := k.rand
  let alea : Int := (r.1 % 53 + 40 : Nat)
  (if alea > -signalLevel.toInt then false else true, r.2)

end CWifi

end Vwifi
