import EthoSlip.Lib.Run
import EthoSlip.Model.Uart

/-!
# SLIP

`slip.c`, which the module and both PC programs share: `send_packet`, `recv_packet`, and the loop
in which every receiving task calls `recv_packet` again and again on one static buffer.
-/

namespace EthoSlip
open Lib

def slipEnd : Byte := 0o300
def slipEsc : Byte := 0o333
def slipEscEnd : Byte := 0o334
def slipEscEsc : Byte := 0o335

section Send

variable {τ : Type} (uart : ByteSink τ)

/-- The `switch(*p)` of `send_packet`. -/
def sendByte (c : Byte) (t : τ) : τ :=
  if c = slipEnd then uart.sendChar slipEscEnd (uart.sendChar slipEsc t)
  else if c = slipEsc then uart.sendChar slipEscEsc (uart.sendChar slipEsc t)
  else uart.sendChar c t

/-- `while(len--)`, with `p` moving over its object; `none` is a read past the end of it. -/
def sendLoop : Nat → Buf → τ → Option τ
  | 0, _, t => some t
  | _ + 1, [], _ => none
  | len + 1, c :: p, t => sendLoop len p (sendByte uart c t)

def sendPacket (p : Buf) (len : Nat) (t : τ) : Option τ :=
  (sendLoop uart len p (uart.sendChar slipEnd t)).map
    (fun t => uart.sendCharDo (uart.sendChar slipEnd t))

end Send

/-- `send_packet` called for one packet after another. -/
def sendPackets {τ : Type} (uart : ByteSink τ) (packets : List (List Byte)) (t : τ) : Option τ :=
  run (fun t p => sendPacket uart p p.length t) t packets

/-- The buffered UART, with the value of `gs_tx_ptr` after every call noted down. -/
def watchedUart : ByteSink (TxBuffer × List Nat) where
  sendChar ch t :=
    let u := TxBuffer.sendChar ch t.1
    (u, t.2 ++ [u.gsTxPtr])
  sendCharDo t :=
    let u := TxBuffer.sendCharDo t.1
    (u, t.2 ++ [u.gsTxPtr])

/-- What a call of `recv_packet` comes to. A call that waits in `recv_char` shows its locals;
`escaped` tells the `recv_char` after an ESC from the one at the top of the loop. -/
inductive RecvResult (σ : Type) where
  | returned (received : Nat) (p : Buf) (rest : σ)
  | waiting (received : Nat) (p : Buf) (escaped : Bool)
  | outOfBounds
  deriving DecidableEq, Repr

/-- The inner `switch(c)`: what the byte after an ESC stands for. -/
def unstuffByte (c : Byte) : Byte :=
  if c = slipEscEnd then slipEnd else if c = slipEscEsc then slipEsc else c

/-- `if(received < len) p[received++] = c;` -/
def recvStore (len : Nat) (p : Buf) (received : Nat) (c : Byte) : Option (Buf × Nat) :=
  if received < len then (p.store received c).map (fun p => (p, received + 1))
  else some (p, received)

section Receive

variable {σ : Type} (src : ByteSource σ) (len : Nat)

/-- The `while(1)` of `recv_packet`. Each turn reads at least one byte, so that fuel above the
number of available bytes never runs out (`recvLoop_fuel`). -/
def recvLoop : Nat → Buf → Nat → σ → RecvResult σ
  | 0, p, received, _ => .waiting received p false
  | fuel + 1, p, received, s =>
    match src.recvChar s with
    | none => .waiting received p false
    | some (c, s) =>
      if c = slipEnd then
        if received ≠ 0 then .returned received p s else recvLoop fuel p received s
      else if c = slipEsc then
        match src.recvChar s with
        | none => .waiting received p true
        | some (c, s) =>
          match recvStore len p received (unstuffByte c) with
          | none => .outOfBounds
          | some (p, received) => recvLoop fuel p received s
      else
        match recvStore len p received c with
        | none => .outOfBounds
        | some (p, received) => recvLoop fuel p received s

def recvPacket (p : Buf) (s : σ) : RecvResult σ := recvLoop src len (src.avail s + 1) p 0 s

end Receive

/-- Where a receiving task stands once its input is used up. -/
inductive Stop (α : Type) where
  | waiting (a : α) (received : Nat) (p : Buf) (escaped : Bool)
  | outOfBounds
  deriving DecidableEq, Repr

/-- A run of a receiving task: what it did for each packet, with the input left unread at that
time, and where it stands at the end. -/
structure Session (σ α β : Type) where
  turns : List (β × σ)
  stop : Stop α
  deriving DecidableEq, Repr

section Serve

variable {σ α β : Type} (src : ByteSource σ) (len : Nat)
  (body : α → Buf → Nat → Option (α × Buf × β))

/-- `while(1) { received = recv_packet(p, len); body }` over the static buffer `p`. -/
def serveLoop : Nat → α → Buf → σ → Session σ α β
  | 0, a, p, _ => ⟨[], .waiting a 0 p false⟩
  | fuel + 1, a, p, s =>
    match recvPacket src len p s with
    | .waiting received p escaped => ⟨[], .waiting a received p escaped⟩
    | .outOfBounds => ⟨[], .outOfBounds⟩
    | .returned received p rest =>
      match body a p received with
      | none => ⟨[], .outOfBounds⟩
      | some (a, p, b) =>
        let next := serveLoop fuel a p rest
        ⟨(b, rest) :: next.turns, next.stop⟩

def serve (a : α) (p : Buf) (s : σ) : Session σ α β := serveLoop src len body (src.avail s + 1) a p s

end Serve

/-- `recv_packet` called again and again, each result kept as the bytes that it stored. -/
def recvPackets {σ : Type} (src : ByteSource σ) (len : Nat) (p : Buf) (s : σ) :
    Session σ Unit (List Byte) :=
  serve src len (fun _ p received => some ((), p, p.take received)) () p s

end EthoSlip
