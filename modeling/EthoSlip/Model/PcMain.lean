import EthoSlip.Model.SoftTimer
import EthoSlip.Model.WlanApi

/-!
# The main loop of the PC stack

`main` in `ethoslip_main.c` calls `wlan_api_rx_proc`, `soft_timer_proc` and `user_loop` in turn, and
`user_main.c` brings the interface up. The calls into lwIP do not touch the state that is kept here.
-/

namespace EthoSlip

/-- The values of `wifi_status`. -/
inductive WifiStatus where
  | notHwaddr
  | gotHwaddr
  | connected
  | dhcpNotIp
  | dhcpGotIp
  | runing
  | free
  deriving DecidableEq, Repr

inductive TimerCb where
  | softTimerDefault
  | getHwaddrTimeoutCallback
  | udpDebugCallback
  deriving DecidableEq, Repr

inductive HwaddrCb where
  | getHwaddrCallback
  deriving DecidableEq, Repr

/-- What the history of a run keeps, in the order in which it happened. -/
inductive Event where
  /-- `wlan_api_get_hwaddr` has sent a request. -/
  | hwaddrRequest
  /-- `get_hwaddr_callback` is invoked. -/
  | hwaddrCallback
  /-- `netif.hwaddr` is written by it. -/
  | hwaddrWritten
  /-- `wifi_status` is assigned. -/
  | wifiStatus (status : WifiStatus)
  deriving DecidableEq, Repr

/-- The statics of the program, the numbers of clock readings and of `malloc` calls so far, and
the history. -/
structure PcState where
  api : WlanApi HwaddrCb
  timer : TimerTable TimerCb
  wifiStatus : WifiStatus
  hwaddr : Vector Byte 6
  uart : TxBuffer
  clockReads : Nat
  mallocs : Nat
  history : List Event

/-- The state in which `main` enters its loop. -/
def PcState.init (hwaddr : Vector Byte 6) : PcState where
  api := ⟨wlanApiTypeFree, none⟩
  timer := softTimerInit .softTimerDefault
  wifiStatus := .notHwaddr
  hwaddr := hwaddr
  uart := TxBuffer.init
  clockReads := 0
  mallocs := 0
  history := []

def PcState.setWifiStatus (status : WifiStatus) (s : PcState) : PcState :=
  { s with wifiStatus := status, history := s.history ++ [.wifiStatus status] }

section Main

/-! `clock` and `malloc` are the readings of the clock and the results of `malloc`, in the order of
the calls. -/

variable (clock : Nat → UInt64) (malloc : Nat → (n : Nat) → Malloc n)

def pcTimers : TimerHost TimerCb PcState where
  timer := PcState.timer
  setTimer := fun timer s => { s with timer := timer }
  getTickCount := fun s => (clock s.clockReads, { s with clockReads := s.clockReads + 1 })

/-! ### `user_main.c` -/

/-- The lines that print the address read no more of it than is copied. -/
def getHwaddrCallback (hwaddr : Buf) (len : Nat) (s : PcState) : Option PcState := do
  let s := { s with history := s.history ++ [Event.hwaddrCallback] }
  let copied ← copyArray s.hwaddr hwaddr len
  let s := { s with hwaddr := copied, history := s.history ++ [Event.hwaddrWritten] }
  let (s, _) := (pcTimers clock).softTimerDelete 1 s
  return s.setWifiStatus .gotHwaddr

/-- `wlan_api_get_hwaddr(get_hwaddr_callback)`. -/
def getHwaddr (s : PcState) : Option (PcState × Int) := do
  let (api, uart, r) ← wlanApiGetHwaddr bufferedUart (malloc s.mallocs _)
    (some HwaddrCb.getHwaddrCallback) s.api s.uart
  let s := { s with api := api, uart := uart, mallocs := s.mallocs + 1 }
  return (if 0 ≤ r then { s with history := s.history ++ [.hwaddrRequest] } else s, r)

/-- The request with its retry timer, as both `get_hwaddr_timeout_callback` and `user_loop` have
it. -/
def requestHwaddr (s : PcState) : Option PcState := do
  let (s, r) ← getHwaddr malloc s
  if 0 ≤ r then
    return ((pcTimers clock).softTimerCreate 1 1 0 .getHwaddrTimeoutCallback 2000 s).1
  else return s

def getHwaddrTimeoutCallback (s : PcState) : Option PcState := requestHwaddr clock malloc s

/-- `udp_test()`, of which only the timer concerns this state. -/
def udpTest (s : PcState) : PcState :=
  ((pcTimers clock).softTimerCreate 0 1 1 .udpDebugCallback 2000 s).1

/-- "MTK" and "12345678" with their NULs. -/
def ssid2 : Buf := [0x4d, 0x54, 0x4b, 0]
def passwd2 : Buf := [0x31, 0x32, 0x33, 0x34, 0x35, 0x36, 0x37, 0x38, 0]

/-- `suppliedAddress` is the result of `dhcp_supplied_address`. -/
def userLoop (suppliedAddress : Byte) (s : PcState) : Option PcState :=
  match s.wifiStatus with
  | .notHwaddr => do
    let s ← requestHwaddr clock malloc s
    return s.setWifiStatus .free
  | .gotHwaddr => do
    let ssidLen ← strlen ssid2
    let passwdLen ← strlen passwd2
    let (uart, _) ← wlanApiConnect bufferedUart (malloc s.mallocs _) ssid2 passwd2
      (UInt8.ofNat ssidLen) (UInt8.ofNat passwdLen) s.uart
    return { s with uart := uart, mallocs := s.mallocs + 1 }.setWifiStatus .connected
  | .connected => some (s.setWifiStatus .dhcpNotIp)
  | .dhcpNotIp => some (if suppliedAddress = 1 then s.setWifiStatus .dhcpGotIp else s)
  | .dhcpGotIp => some ((udpTest clock s).setWifiStatus .runing)
  | .runing => some s
  | .free => some s

/-! ### `ethoslip_main.c` -/

def callTimer : TimerCb → PcState → Option PcState
  | .softTimerDefault, s => some s
  | .getHwaddrTimeoutCallback, s => getHwaddrTimeoutCallback clock malloc s
  | .udpDebugCallback, s => some s

def callHwaddr : HwaddrCb → Buf → Nat → PcState → Option PcState
  | .getHwaddrCallback => getHwaddrCallback clock

def pcApi : ApiHost HwaddrCb PcState where
  api := PcState.api
  setApi := fun api s => { s with api := api }

/-- `wlan_api_rx_proc(p->payload, p->len)`. -/
def rxProc (p : Buf) (s : PcState) : Option (PcState × Int) :=
  pcApi.wlanApiRxProc (callHwaddr clock) p p.length s

/-- What an iteration of the main loop meets: the payload of the `pbuf` that it takes out of the
queue, if there is one, and the result of `dhcp_supplied_address`. -/
structure LoopInput where
  payload : Option Buf
  suppliedAddress : Byte
  deriving DecidableEq, Repr

/-- The part of the loop that `continue` skips. -/
def loopTail (suppliedAddress : Byte) (s : PcState) : Option PcState := do
  let s ← (pcTimers clock).softTimerProc (callTimer clock malloc) s
  userLoop clock malloc suppliedAddress s

def mainIteration (s : PcState) (input : LoopInput) : Option PcState :=
  match input.payload with
  | none => loopTail clock malloc input.suppliedAddress s
  | some p => do
    let (s, r) ← rxProc clock p s
    if r = 0 then return s
    loopTail clock malloc input.suppliedAddress s

end Main

end EthoSlip
