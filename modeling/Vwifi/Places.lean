import Vwifi.Directory
import Vwifi.HubRuns
import Vwifi.Replies

/-!
# What the places are for

The distance that is reported and the level at which a frame is heard are those of the
places that the directory has been told.
-/

namespace Vwifi

set_option autoImplicit false

open Broadcast

namespace Directory

def place (known : Directory) (cid : TCID) : Option CCoordinate :=
  (known cid).map Whereabouts.place

/-- The level at which a guest gets what another one transmits. -/
def signalLevel (known : Directory) (medium : Medium) (scale : TScale) (n : Signal)
    (sender listener : TCID) : Option TPower :=
  match known.place sender, known.place listener with
  | some coo, some coo' =>
    some (CWifi.boundedPower (n.power.toInt32 -
      CWifi.attenuation medium (coo.distanceWith medium scale coo')
        (CWifi.getFrequency medium n.data)))
  | _, _ => none

end Directory

namespace Config

variable {medium : Medium} {setup : Setup} {ls : List Label} {c : Config}

section Round

variable {c' : Config} {v v' : Bool → Registry} {before after : List Entry} {e : Entry}
  {srcIsSpy : Bool} {r q : Registry} {g' : Globals} {i : TIndex}

end Round

end Config

end Vwifi
