import EthoSlip.Lib.LossyFifo
import EthoSlip.Model.Relay

/-!
# The module's UART

`uart2.c` of the module: the interrupt handler puts each received byte into `charQueue`, a queue of
the operating system that refuses what it has no room for, and `recv_char` takes it out again in the
slip task. At start two lines of text are written.
-/

namespace EthoSlip
open Lib

def charQueueMaxNum : Nat := 2000

/-- The queue as its documentation describes it: a FIFO of at most `charQueueMaxNum` bytes, in which
`xQueueSendFromISR` fails when it is full and `xQueueReceive` when it is empty. -/
structure XQueue (ω : Type) where
  xQueueCreate : ω
  xQueueSendFromISR : ω → Byte → ω
  xQueueReceive : ω → Option (Byte × ω)
  contents : ω → Fifo charQueueMaxNum Byte
  contents_create : contents xQueueCreate = .empty
  contents_send : ∀ q ch, contents (xQueueSendFromISR q ch) = (contents q).offer ch
  contents_receive : ∀ q,
    (xQueueReceive q).map (fun r => (r.1, contents r.2)) = (contents q).poll

/-- The FIFO itself. -/
def fifoQueue : XQueue (Fifo charQueueMaxNum Byte) where
  xQueueCreate := .empty
  xQueueSendFromISR := Fifo.offer
  xQueueReceive := Fifo.poll
  contents := id
  contents_create := rfl
  contents_send := fun _ _ => rfl
  contents_receive := fun _ => Option.map_id'

inductive SerialIrq where
  | rxIrq
  | txIrq
  deriving DecidableEq, Repr

/-- What happens on the receive side: an interrupt, in which `serial_getc` would return `ch`, or a
turn of the `while` in `recv_char`. -/
inductive UartTick where
  | irq (event : SerialIrq) (ch : Byte)
  | recv
  deriving DecidableEq, Repr

/-- The FIFO as a producer and a consumer see it. -/
def UartTick.queueTick : UartTick → Option (Tick Byte)
  | .irq .rxIrq ch => some (.arrive ch)
  | .irq .txIrq _ => none
  | .recv => some .take

/-- The bytes that reach the UART. -/
def rxBytes (ticks : List UartTick) : List Byte :=
  Tick.arrived (ticks.filterMap UartTick.queueTick)

section Queue

variable {ω : Type} (X : XQueue ω)

def uart2IrqHandler (event : SerialIrq) (ch : Byte) (charQueue : ω) : ω :=
  match event with
  | .rxIrq => X.xQueueSendFromISR charQueue ch
  | .txIrq => charQueue

/-- `recv_char` of the module, with what happens until it returns. -/
def charQueueRecv : ω → List UartTick → Option (Byte × ω × List UartTick)
  | _, [] => none
  | charQueue, .irq event ch :: ticks => charQueueRecv (uart2IrqHandler X event ch charQueue) ticks
  | charQueue, .recv :: ticks =>
    match X.xQueueReceive charQueue with
    | none => charQueueRecv charQueue ticks
    | some (ch, charQueue) => some (ch, charQueue, ticks)

/-- The bytes that `recv_char` returns from here on. -/
def charQueueTaken : ω → List UartTick → List Byte
  | _, [] => []
  | charQueue, .irq event ch :: ticks => charQueueTaken (uart2IrqHandler X event ch charQueue) ticks
  | charQueue, .recv :: ticks =>
    match X.xQueueReceive charQueue with
    | none => charQueueTaken charQueue ticks
    | some (ch, charQueue) => ch :: charQueueTaken charQueue ticks

/-- The queue when everything has happened. -/
def charQueueLeft : ω → List UartTick → ω
  | charQueue, [] => charQueue
  | charQueue, .irq event ch :: ticks => charQueueLeft (uart2IrqHandler X event ch charQueue) ticks
  | charQueue, .recv :: ticks =>
    match X.xQueueReceive charQueue with
    | none => charQueueLeft charQueue ticks
    | some (_, charQueue) => charQueueLeft charQueue ticks

lemma charQueueTaken_recv (charQueue : ω) (ticks : List UartTick) :
    lineSource.recvChar (charQueueTaken X charQueue ticks) =
      (charQueueRecv X charQueue ticks).map (fun r => (r.1, charQueueTaken X r.2.1 r.2.2)) := by
  induction ticks generalizing charQueue with
  | nil => rfl
  | cons e ticks ih =>
    cases e with
    | irq event ch => exact ih _
    | recv =>
      rw [charQueueTaken, charQueueRecv]
      cases X.xQueueReceive charQueue with
      | none => exact ih charQueue
      | some r => rfl

/-- The `recv_char` of the slip task. -/
def charQueueSource : ByteSource (ω × List UartTick) where
  recvChar := fun s => charQueueRecv X s.1 s.2
  avail := fun s => (charQueueTaken X s.1 s.2).length
  avail_recvChar := by
    intro s c s' h
    have hline := charQueueTaken_recv X s.1 s.2
    rw [h, Option.map_some] at hline
    exact lineSource.avail_recvChar _ _ _ hline

/-- `slip2ip_task_proc` as it runs on the module, behind the interrupt handler. -/
def slip2ipTaskOnQueue (pbufAlloc : Nat → (n : Nat) → Malloc n) (a : RelayState)
    (slipOutBuffer : Vector Byte moduleBufSize) (ticks : List UartTick) :
    Session (ω × List UartTick) RelayState RelayEffect :=
  serve (charQueueSource X) moduleBufSize (relayTurn pbufAlloc) a slipOutBuffer.toList
    (X.xQueueCreate, ticks)

end Queue

end EthoSlip
