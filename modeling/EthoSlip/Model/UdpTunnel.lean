import EthoSlip.Lib.Run
import EthoSlip.Model.Relay
import EthoSlip.Model.Tun

/-!
# The module as one end of a UDP tunnel

`slip2ip_task.c` as it is built with `_USE_UDP_TUNNEL`: what comes from the PC is combined with the
key and sent to the server, and what comes from the server is combined with the key and sent to the
PC. wlan API frames are answered as they are in the direct build.
-/

namespace EthoSlip
open Lib

/-- What the task does with a packet: what it does in the direct build too, or `udp_send`. -/
inductive UdpRelayEffect where
  | relay (e : RelayEffect)
  | udpSend (p : List Byte)
  deriving DecidableEq

section Relay

/-! `pbufAlloc` are the results of `pbuf_alloc(PBUF_TRANSPORT, ...)`, in the order of the calls. -/

variable (pbufAlloc : Nat → (n : Nat) → Malloc n) (key : Buf)

def udpRelayOutput (a : RelayState) (slipOutBuffer : Buf) (totalLen : Nat) :
    Option (RelayState × Buf × UdpRelayEffect) := do
  let slipOutBuffer ← keyXor slipOutBuffer totalLen key
  let allocated := pbufAlloc a.pbufAllocs totalLen
  let a := { a with pbufAllocs := a.pbufAllocs + 1 }
  match allocated with
  | none => return (a, slipOutBuffer, .relay .cannotAllocate)
  | some p =>
    let (p, err) ← pbufTake p.toList slipOutBuffer totalLen
    if err ≠ errOk then return (a, slipOutBuffer, .relay .cannotTake)
    else return (a, slipOutBuffer, .udpSend p)

/-- One turn of the `while(1)`, behind the `recv_packet` that stored `received` bytes. -/
def udpRelayTurn (a : RelayState) (slipOutBuffer : Buf) (received : Nat) :
    Option (RelayState × Buf × UdpRelayEffect) := do
  let (slipOutBuffer, totalLen) ← ifApiCheck slipOutBuffer received
  if totalLen < 0 then return (a, slipOutBuffer, .relay .checksumError)
  else if (← isWlanApi slipOutBuffer totalLen) then
    let (a, slipOutBuffer, e) ← relayApi a slipOutBuffer totalLen.toNat
    return (a, slipOutBuffer, .relay e)
  else udpRelayOutput pbufAlloc key a slipOutBuffer totalLen.toNat

end Relay

/-- What becomes of the task. -/
inductive UdpTask where
  | failedToNew
  | failedToConnect
  | serving (session : Session (List Byte) RelayState UdpRelayEffect)
  deriving DecidableEq

/-- `slip2ip_task_proc`; `udpNew` tells whether there is a socket, and `udpConnect` is the result of
`udp_connect`. -/
def slip2ipTaskProcUdp (udpNew : Bool) (udpConnect : Int)
    (pbufAlloc : Nat → (n : Nat) → Malloc n) (key : Vector Byte tunBufSize) (a : RelayState)
    (slipOutBuffer : Vector Byte moduleBufSize) (w : List Byte) : Option UdpTask := do
  let key ← keyInit key.toList
  if udpNew = false then return .failedToNew
  else if udpConnect ≠ errOk then return .failedToConnect
  else return .serving (serve lineSource moduleBufSize (udpRelayTurn pbufAlloc key) a
    slipOutBuffer.toList w)

/-- `udp_data_input_cb`: the `static` buffer as the callback leaves it, and what is sent. Its
`pbuf_copy_partial` is the one of the SDK, for which that of lwIP 2.1.0 stands. -/
def udpDataInputCb (slipUsed : UInt32) (udpOutBuffer key : Buf) (p : List Pbuf) :
    Option (Buf × List Byte) :=
  if slipUsed ≠ 0 then some (udpOutBuffer, [])
  else
    match p with
    | [] => none
    | buf :: next => do
      let totalLen := buf.totLen
      let (udpOutBuffer, _) ← pbufCopyPartial (buf :: next) udpOutBuffer totalLen 0
      let udpOutBuffer ← keyXor udpOutBuffer totalLen.toNat key
      let (udpOutBuffer, len) ← ifApiCalculateChecksum udpOutBuffer totalLen.toNat
      let totalLen := UInt16.ofNat len
      let sent ← sendPacket directUart udpOutBuffer totalLen.toNat []
      return (udpOutBuffer, sent)

/-- The callback with the buffer as it is and all that has been written. -/
def udpDelivery (key : Buf) (s : Buf × List Byte) (d : UInt32 × List Pbuf) :
    Option (Buf × List Byte) :=
  (udpDataInputCb d.1 s.1 key d.2).map (fun r => (r.1, s.2 ++ r.2))

/-- One datagram after the other, each with `slip_used` as the callback finds it. -/
def udpDeliveries (key : Buf) (udpOutBuffer : Vector Byte tunBufSize)
    (ds : List (UInt32 × List Pbuf)) : Option (Buf × List Byte) :=
  run (udpDelivery key) (udpOutBuffer.toList, []) ds

end EthoSlip
