import EthoSlip.Model.Memory
import EthoSlip.Model.Tunnel

/-!
# The wlan API

Control frames travel between the PC and the module as Ethernet frames of type `0xffff`. The two
`wlan_api.h` agree on the constants and on the two packed structures; the PC's `wlan_api.c` sends
the requests and takes the reply, the module's `wlan_api_pack_proc` serves them.
-/

namespace EthoSlip

def wlanApiTypeFree : Byte := 0x00
def wlanApiTypeConnect : Byte := 0x01
def wlanApiTypeGetHwaddr : Byte := 0x02
def wlanApiTypeGetHwaddrRet : Byte := wlanApiTypeGetHwaddr ||| 0x80

def wlanApiSsidMaxLen : Nat := 33
def wlanApiPasswordMaxLen : Nat := 65

def isWlanApiFrameLen (len : Int) : Bool := 14 < len

def isWlanApiFrame (p : Buf) : Option Bool := do
  if (← p.load 12) = 0xff then return (← p.load 13) = 0xff
  else return false

lemma exists_isWlanApiFrame {p : Buf} (h : 14 ≤ p.length) : ∃ b, isWlanApiFrame p = some b := by
  obtain ⟨c, hc⟩ := exists_load (p := p) (i := 12) (by omega)
  obtain ⟨d, hd⟩ := exists_load (p := p) (i := 13) (by omega)
  by_cases hff : c = 0xff
  · exact ⟨d = 0xff, by simp [isWlanApiFrame, hc, hd, hff]⟩
  · exact ⟨false, by simp [isWlanApiFrame, hc, hff]⟩

/-! Offsets in the packed structures `wlan_api_default_t` and `wlan_api_wifi_connect_t`. -/

def offSrc : Nat := 6
def offType : Nat := 14
def offBuf : Nat := 15
def offSsidLen : Nat := 15
def offSsid : Nat := 16
def offPasswordLen : Nat := 49
def offPassword : Nat := 50

def sizeofDefault : Nat := 16
def sizeofWifiConnect : Nat := 115

/-! ### The module -/

/-- `rtw_security_t`, as far as the API names its values. -/
inductive RtwSecurity where
  | open
  | wpa2AesPsk
  | other (value : Nat)
  deriving DecidableEq, Repr

structure RtwSsid where
  len : Byte
  val : Vector Byte wlanApiSsidMaxLen
  deriving DecidableEq

/-- The globals that `wlan_api_pack_proc` works on, with the number of calls of
`wlan_connect_wifi`. -/
structure ModuleState where
  gsSsid : RtwSsid
  gsPasswd : Vector Byte 100
  gsSecurityType : RtwSecurity
  hwaddr : Vector Byte 6
  hwaddrLen : Byte
  connects : Nat
  deriving DecidableEq

/-- The test under `//SAME`. -/
def wasConfigured (buf : Buf) (m : ModuleState) : Option Bool := do
  if (← memcmp m.gsSsid.val.toList (buf.drop offSsid) m.gsSsid.len.toNat) = .eq then
    let len ← strlen m.gsPasswd.toList
    return (← memcmp m.gsPasswd.toList (buf.drop offPassword) len) = .eq
  else return false

/-- Copies the credentials out of the frame. The `strlen` stand for the two lines that print the
strings. -/
def configure (buf : Buf) (ssidLen passwordLen : Byte) (m : ModuleState) : Option ModuleState := do
  let val ← copyArray m.gsSsid.val (buf.drop offSsid) ssidLen.toNat
  let val ← storeArray val ssidLen.toNat 0
  let _ ← strlen val.toList
  let passwd ← copyArray m.gsPasswd (buf.drop offPassword) passwordLen.toNat
  let passwd ← storeArray passwd passwordLen.toNat 0
  let _ ← strlen passwd.toList
  return { m with
    gsSsid := ⟨ssidLen, val⟩
    gsPasswd := passwd
    gsSecurityType := if passwordLen = 0 then .open else .wpa2AesPsk }

/-- The case `WLAN_API_TYPE_CONNECT`. -/
def connectProc (buf : Buf) (len : Nat) (m : ModuleState) : Option (ModuleState × Int) :=
  if sizeofWifiConnect ≠ len then some (m, -1)
  else do
    let ssidLen ← buf.load offSsidLen
    if wlanApiSsidMaxLen ≤ ssidLen.toNat then return (m, -1)
    let passwordLen ← buf.load offPasswordLen
    if wlanApiPasswordMaxLen ≤ passwordLen.toNat then return (m, -1)
    if (← wasConfigured buf m) then return (m, 0)
    let m ← configure buf ssidLen passwordLen m
    return ({ m with connects := m.connects + 1 }, 0)

def wlanApiPackProc (buf : Buf) (len : Nat) (m : ModuleState) : Option (Buf × ModuleState × Int) :=
  if len < sizeofDefault then some (buf, m, -1)
  else do
    let type ← buf.load offType
    if type = wlanApiTypeConnect then
      let (m, r) ← connectProc buf len m
      return (buf, m, r)
    else if type = wlanApiTypeGetHwaddr then
      let buf ← buf.memcpy offSrc m.hwaddr.toList m.hwaddrLen.toNat
      let buf ← buf.store offType wlanApiTypeGetHwaddrRet
      let buf ← buf.store offBuf 0x01
      return (buf, m, sizeofDefault)
    else return (buf, m, -1)

/-- A frame in a buffer. -/
structure Received where
  buf : Buf
  len : Nat
  fits : len ≤ buf.length

def receive (m : ModuleState) (f : Received) : Option ModuleState :=
  (wlanApiPackProc f.buf f.len m).map (fun r => r.2.1)

/-! ### The PC -/

/-- `ether_header` in the functions that send a request. -/
def etherHeader : List Byte :=
  [0xff, 0xff, 0xff, 0xff, 0xff, 0xff, 0x00, 0x00, 0x00, 0x00, 0x00, 0x00, 0xff, 0xff]

structure WlanApi (γ : Type) where
  gsWlanApiStatus : Byte
  gsGetHwaddrSuccessCallback : Option γ
  deriving DecidableEq, Repr

/-- The object that `malloc(n)` returns, if any, with whatever it holds. -/
abbrev Malloc (n : Nat) := Option (Vector Byte n)

section Requests

variable {τ γ : Type} (uart : ByteSink τ)

def wlanApiConnect (malloc : Malloc (sizeofWifiConnect + 2)) (ssid passwd : Buf)
    (ssidLen passwdLen : Byte) (t : τ) : Option (τ × Int) :=
  if wlanApiSsidMaxLen ≤ ssidLen.toNat ∨ wlanApiPasswordMaxLen ≤ passwdLen.toNat then some (t, -1)
  else match malloc with
  | none => some (t, -1)
  | some object => do
    let apiCon ← Buf.memset object.toList 0 (sizeofWifiConnect + 2)
    let apiCon ← apiCon.memcpy 0 etherHeader etherHeader.length
    let apiCon ← apiCon.store offType wlanApiTypeConnect
    let apiCon ← apiCon.memcpy offSsid ssid ssidLen.toNat
    let apiCon ← apiCon.memcpy offPassword passwd passwdLen.toNat
    let apiCon ← apiCon.store offSsidLen ssidLen
    let apiCon ← apiCon.store offPasswordLen passwdLen
    let (apiCon, totalLen) ← ifApiCalculateChecksum apiCon sizeofWifiConnect
    let t ← sendPacket uart apiCon totalLen t
    return (t, 0)

def wlanApiGetHwaddr (malloc : Malloc (sizeofDefault + 2)) (successCallback : Option γ)
    (api : WlanApi γ) (t : τ) : Option (WlanApi γ × τ × Int) :=
  let api := { api with gsGetHwaddrSuccessCallback := successCallback }
  match malloc with
  | none => some (api, t, -1)
  | some object => do
    let apiDef ← Buf.memcpy object.toList 0 etherHeader etherHeader.length
    let apiDef ← apiDef.store offType wlanApiTypeGetHwaddr
    let apiDef ← apiDef.store offBuf 0x00
    let (apiDef, totalLen) ← ifApiCalculateChecksum apiDef sizeofDefault
    let t ← sendPacket uart apiDef totalLen t
    return ({ api with gsWlanApiStatus := wlanApiTypeGetHwaddr }, t, 0)

end Requests

/-- The program around the API: where it keeps the statics. -/
structure ApiHost (γ ω : Type) where
  api : ω → WlanApi γ
  setApi : WlanApi γ → ω → ω

/-- `call` is what the callbacks do. -/
def ApiHost.wlanApiRxProc {γ ω : Type} (host : ApiHost γ ω)
    (call : γ → Buf → Nat → ω → Option ω) (buf : Buf) (len : Nat) (w : ω) :
    Option (ω × Int) := do
  if (host.api w).gsWlanApiStatus = wlanApiTypeFree then return (w, -1)
  else if isWlanApiFrameLen len = false then return (w, -1)
  else if (← isWlanApiFrame buf) = false then return (w, -1)
  else if (← buf.load offType) = wlanApiTypeGetHwaddrRet ∧
      (host.api w).gsWlanApiStatus = wlanApiTypeGetHwaddr then
    match (host.api w).gsGetHwaddrSuccessCallback with
    | none => return (w, 0)
    | some callback =>
      let w ← call callback (buf.drop offSrc) 6 w
      return (host.setApi { host.api w with gsWlanApiStatus := wlanApiTypeFree } w, 0)
  else return (w, 0)

/-- Nothing is taken while no request is waiting for its answer. -/
lemma ApiHost.wlanApiRxProc_free {γ ω : Type} (host : ApiHost γ ω)
    (call : γ → Buf → Nat → ω → Option ω) (buf : Buf) (len : Nat) {w : ω}
    (h : (host.api w).gsWlanApiStatus = wlanApiTypeFree) :
    host.wlanApiRxProc call buf len w = some (w, -1) := by
  rw [wlanApiRxProc, if_pos h]
  rfl

/-- The statics of the API, the rest of the program, and the calls of the callbacks with the bytes
that they were given. -/
structure ApiLog (γ κ : Type) where
  api : WlanApi γ
  program : κ
  calls : List (γ × List Byte)

section Log

variable {γ κ : Type}

def loggingHost : ApiHost γ (ApiLog γ κ) where
  api := ApiLog.api
  setApi := fun api s => { s with api := api }

/-- A callback does what `act` says, with the statics of the API too, after reading its bytes. -/
def loggedCall (act : γ → List Byte → WlanApi γ × κ → WlanApi γ × κ) (callback : γ) (hwaddr : Buf)
    (len : Nat) (s : ApiLog γ κ) : Option (ApiLog γ κ) :=
  if len ≤ hwaddr.length then
    let (api, program) := act callback (hwaddr.take len) (s.api, s.program)
    some ⟨api, program, s.calls ++ [(callback, hwaddr.take len)]⟩
  else none

/-- `wlan_api_rx_proc` on one payload after the other, with its results. -/
def rxFrames (act : γ → List Byte → WlanApi γ × κ → WlanApi γ × κ) :
    List Buf → ApiLog γ κ → Option (ApiLog γ κ × List Int)
  | [], s => some (s, [])
  | p :: ps, s => do
    let (s, r) ← loggingHost.wlanApiRxProc (loggedCall act) p p.length s
    let (s, rs) ← rxFrames act ps s
    return (s, r :: rs)

end Log

end EthoSlip
