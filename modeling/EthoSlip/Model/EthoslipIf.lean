import EthoSlip.Lib.Run
import EthoSlip.Model.Relay
import EthoSlip.Model.Tunnel

/-!
# The network interface of the PC stack

`ethoslipif_low_level_output` is the `linkoutput` of lwIP on the PC. It flattens a packet into a
`static` buffer, as `from_ap_input` does on the module, and sends it over the buffered UART.
-/

namespace EthoSlip
open Lib

/-- `lwip_out_buffer`, and the UART behind it. -/
structure EthoslipIf where
  lwipOutBuffer : Buf
  uart : TxBuffer

def EthoslipIf.init (lwipOutBuffer : Vector Byte pcBufSize) : EthoslipIf :=
  ⟨lwipOutBuffer.toList, .init⟩

/-- `total_len` is an `int` here. -/
def ethoslipifLowLevelOutput (netif : EthoslipIf) (p : List Pbuf) : Option EthoslipIf :=
  match p with
  | [] => none
  | buf :: next => do
    let totalLen := buf.totLen
    let (lwipOutBuffer, _) ← pbufCopyPartial (buf :: next) netif.lwipOutBuffer totalLen 0
    let (lwipOutBuffer, totalLen) ← ifApiCalculateChecksum lwipOutBuffer totalLen.toNat
    let uart ← sendPacket bufferedUart lwipOutBuffer totalLen netif.uart
    return ⟨lwipOutBuffer, uart⟩

def ethoslipifOutputs (netif : EthoslipIf) (ps : List (List Pbuf)) : Option EthoslipIf :=
  run ethoslipifLowLevelOutput netif ps

/-- A call of `from_ap_input` with what the callback finds. -/
structure ApCall where
  slipUsed : UInt32
  skb : SkbCounters
  p : List Pbuf
  deriving DecidableEq

/-- The callback with the buffer as it is and all that has been written. -/
def apDelivery (s : Buf × List Byte) (c : ApCall) : Option (Buf × List Byte) :=
  (fromApInput c.slipUsed c.skb s.1 c.p).map (fun r => (r.1, s.2 ++ r.2))

def apDeliveries (fromApOutBuffer : Vector Byte moduleBufSize) (calls : List ApCall) :
    Option (Buf × List Byte) :=
  run apDelivery (fromApOutBuffer.toList, []) calls

end EthoSlip
