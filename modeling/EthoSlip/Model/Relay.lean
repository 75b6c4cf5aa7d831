import EthoSlip.Model.Pbuf
import EthoSlip.Model.WlanApi

/-!
# The relay loop of the module

`slip2ip_task_proc` as it is built for the direct connection: wlan API frames are answered in the
receive buffer, every other payload is copied into a `pbuf` and given to the driver. Packets of the
driver take the other way through `from_ap_input`.
-/

namespace EthoSlip

def errOk : Int := 0
def errMem : Int := -1

/-- `pbuf_take`, with the bytes of the chain one after the other in `p`. The module links the lwIP 1.4.1
of its SDK; this follows `core/pbuf.c` of the lwIP 2.1.0 that the PC side brings along. -/
def pbufTake (p dataptr : Buf) (len : Nat) : Option (Buf × Int) :=
  if p.length < len then some (p, errMem)
  else (p.memcpy 0 dataptr len).map (fun p => (p, errOk))

/-- What the task does with a packet. -/
inductive RelayEffect where
  | checksumError
  /-- The globals as `wlan_api_pack_proc` leaves them, and what is sent in reply. -/
  | wlanApi (wlan : ModuleState) (reply : List Byte)
  | cannotAllocate
  | cannotTake
  | lowLevelOutput (p : List Byte)
  deriving DecidableEq

/-- The globals of the wlan API, and the number of `pbuf_alloc` calls so far. -/
structure RelayState where
  wlan : ModuleState
  pbufAllocs : Nat
  deriving DecidableEq

section Relay

/-! `pbufAlloc` are the results of `pbuf_alloc`, in the order of the calls. -/

variable (pbufAlloc : Nat → (n : Nat) → Malloc n)

/-- `IS_WLAN_API_FRAME_LEN(total_len) && IS_WLAN_API_FRAME(slip_out_buffer)` -/
def isWlanApi (slipOutBuffer : Buf) (totalLen : Int) : Option Bool :=
  if isWlanApiFrameLen totalLen then isWlanApiFrame slipOutBuffer else some false

def relayApi (a : RelayState) (slipOutBuffer : Buf) (totalLen : Nat) :
    Option (RelayState × Buf × RelayEffect) := do
  let (slipOutBuffer, wlan, len) ← wlanApiPackProc slipOutBuffer totalLen a.wlan
  let a := { a with wlan := wlan }
  if 0 < len then
    let (slipOutBuffer, len) ← ifApiCalculateChecksum slipOutBuffer len.toNat
    let reply ← sendPacket directUart slipOutBuffer len []
    return (a, slipOutBuffer, .wlanApi wlan reply)
  else return (a, slipOutBuffer, .wlanApi wlan [])

def relayOutput (a : RelayState) (slipOutBuffer : Buf) (totalLen : Nat) :
    Option (RelayState × Buf × RelayEffect) :=
  let allocated := pbufAlloc a.pbufAllocs totalLen
  let a := { a with pbufAllocs := a.pbufAllocs + 1 }
  match allocated with
  | none => some (a, slipOutBuffer, .cannotAllocate)
  | some p => do
    let (p, err) ← pbufTake p.toList slipOutBuffer totalLen
    if err ≠ errOk then return (a, slipOutBuffer, .cannotTake)
    else return (a, slipOutBuffer, .lowLevelOutput p)

/-- One turn of the `while(1)`, behind the `recv_packet` that stored `received` bytes. -/
def relayTurn (a : RelayState) (slipOutBuffer : Buf) (received : Nat) :
    Option (RelayState × Buf × RelayEffect) := do
  let (slipOutBuffer, totalLen) ← ifApiCheck slipOutBuffer received
  if totalLen < 0 then return (a, slipOutBuffer, .checksumError)
  else if (← isWlanApi slipOutBuffer totalLen) then
    relayApi a slipOutBuffer totalLen.toNat
  else relayOutput pbufAlloc a slipOutBuffer totalLen.toNat

/-- The task on the bytes of the UART. -/
def slip2ipTaskProc (a : RelayState) (slipOutBuffer : Vector Byte moduleBufSize) (w : List Byte) :
    Session (List Byte) RelayState RelayEffect :=
  serve lineSource moduleBufSize (relayTurn pbufAlloc) a slipOutBuffer.toList w

end Relay

/-! ### From the access point -/

/-- The `static` buffer as the callback leaves it, and what is sent. Its `pbuf_copy_partial` is the one
of the SDK, for which that of lwIP 2.1.0 stands. -/
def fromApInput (slipUsed : UInt32) (skb : SkbCounters) (fromApOutBuffer : Buf) (p : List Pbuf) :
    Option (Buf × List Byte) :=
  if slipUsed ≠ 0 then some (fromApOutBuffer, [])
  else if skb.Short then some (fromApOutBuffer, [])
  else
    match p with
    | [] => none
    | buf :: next => do
      let totalLen := buf.totLen
      let (fromApOutBuffer, _) ← pbufCopyPartial (buf :: next) fromApOutBuffer totalLen 0
      let (fromApOutBuffer, len) ← ifApiCalculateChecksum fromApOutBuffer totalLen.toNat
      -- the variable that takes the new length is a `uint16_t`
      let totalLen := UInt16.ofNat len
      let sent ← sendPacket directUart fromApOutBuffer totalLen.toNat []
      return (fromApOutBuffer, sent)

end EthoSlip
