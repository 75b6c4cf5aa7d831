import EthoSlip.Model.Slip

/-!
# The Ethernet tunnel

The checksum that both ends put behind a payload, the loop of `ethoslip_tun` that reads the TAP
device and sends each packet over the buffered UART, and the receiving loop of the module up to
the point where a payload is accepted.
-/

namespace EthoSlip

/-- `for(i=0;i<len;i++,p++) sum += *p;`; `none` is a read past the end of the object. -/
def checksumLoop : Nat → Buf → UInt32 → Option UInt32
  | 0, _, sum => some sum
  | _ + 1, [], _ => none
  | len + 1, c :: p, sum => checksumLoop len p (sum + c.toUInt32)

/-- Writes the trailer behind the first `len` bytes; `none` is an access outside the buffer. -/
def ifApiCalculateChecksum (p : Buf) (len : Nat) : Option (Buf × Nat) := do
  let sum ← checksumLoop len p 0
  let sum := (sum % 65536) ^^^ 0xffff
  let p ← p.store len ((sum &&& 0x7f00) >>> 8).toUInt8
  let p ← p.store (len + 1) (sum &&& 0x7f).toUInt8
  return (p, len + 2)

def ifApiCheck (p : Buf) (len : Nat) : Option (Buf × Int) :=
  if len < 2 then some (p, -1)
  else do
    let chechsumLow ← p.load (len - 1)
    let chechsumHigh ← p.load (len - 2)
    let p ← p.store (len - 1) 0
    let p ← p.store (len - 2) 0
    let (p, _) ← ifApiCalculateChecksum p (len - 2)
    let low ← p.load (len - 1)
    let high ← p.load (len - 2)
    return if chechsumLow ≠ low ∨ chechsumHigh ≠ high then (p, -1) else (p, (len : Int) - 2)

def pcBufSize : Nat := 4000

/-- The statics of `ethoslip_tun` that the TAP loop works on. -/
structure TapState where
  tunOutBuffer : Buf
  uart : TxBuffer

def TapState.init : TapState := ⟨List.replicate pcBufSize 0, TxBuffer.init⟩

/-- One turn of the `while` loop in `main`, in which `read()` delivers the packet `payload`. -/
def tapTurn (payload : List Byte) (t : TapState) : Option TapState := do
  let payload := payload.take pcBufSize
  let tunOutBuffer := t.tunOutBuffer.overlay payload
  let (tunOutBuffer, totalLen) ← ifApiCalculateChecksum tunOutBuffer payload.length
  let uart ← sendPacket bufferedUart tunOutBuffer totalLen t.uart
  return ⟨tunOutBuffer, uart⟩

def tapLoop : List (List Byte) → TapState → Option TapState
  | [], t => some t
  | payload :: payloads, t => do
    let t ← tapTurn payload t
    tapLoop payloads t

/-- The bytes that the loop hands to `write()` for some payloads, from program start. -/
def sentLine (payloads : List (List Byte)) : List Byte :=
  match tapLoop payloads .init with
  | some t => t.uart.written.flatten
  | none => []

def moduleBufSize : Nat := 2000

/-- What `slip2ip_task_proc` does with a packet before it looks at its content: the payload that
`if_api_check` accepts. -/
def checkPacket (p : Buf) (received : Nat) : Option (Buf × Option (List Byte)) := do
  let (p, totalLen) ← ifApiCheck p received
  return (p, if totalLen < 0 then none else some (p.take totalLen.toNat))

/-- The receiving loop of the module on a byte stream, over its static `slip_out_buffer`. -/
def moduleRun (slipOutBuffer : Vector Byte moduleBufSize) (w : List Byte) :
    Session (List Byte) Unit (Option (List Byte)) :=
  serve lineSource moduleBufSize
    (fun _ p received => (checkPacket p received).map (fun r => ((), r.1, r.2)))
    () slipOutBuffer.toList w

/-- The payloads that the module accepts from a byte stream. -/
def accepted (slipOutBuffer : Vector Byte moduleBufSize) (w : List Byte) : List (List Byte) :=
  (moduleRun slipOutBuffer w).turns.filterMap Prod.fst

/-- The payloads that `slip_out_task_proc` of either PC program accepts from a byte stream. -/
def pcAccepted (slipOutBuffer : Vector Byte pcBufSize) (w : List Byte) : List (List Byte) :=
  (serve lineSource pcBufSize
    (fun _ p received => (checkPacket p received).map (fun r => ((), r.1, r.2)))
    () slipOutBuffer.toList w).turns.filterMap Prod.fst

end EthoSlip
