import EthoSlip.Model.Slip

/-!
# The two senders of the module

`slip2ip_task_proc` answers a request with `send_packet` while `slip_used` is set, and
`from_ap_input`, which runs in another task, gives up when it finds `slip_used` set. Either task may
be preempted between any two of the steps below; both write through `serial_putc`.
-/

namespace EthoSlip

/-- The bytes that `send_packet` gives to `send_char`, one after the other. -/
def sendChars (p : List Byte) : List Byte := (sendPacket directUart p p.length []).getD []

/-- Where `slip2ip_task_proc` is; `sending` keeps the `send_char` calls that are left. -/
inductive SlipTask where
  | receiving
  | replying (p : List Byte)
  | sending (rest : List Byte)
  deriving DecidableEq, Repr

/-- Where `from_ap_input` is. It is `admitted` once it has found `slip_used` clear. -/
inductive ApTask where
  | waiting
  | entered (p : List Byte)
  | admitted (p : List Byte)
  | sending (rest : List Byte)
  deriving DecidableEq, Repr

structure UartState where
  slip : SlipTask
  ap : ApTask
  slipUsed : Bool
  written : List Byte
  deriving DecidableEq, Repr

def UartState.init : UartState := ⟨.receiving, .waiting, false, []⟩

inductive TaskStep where
  /-- A request has been answered in the buffer: `if(len > 0)` -/
  | slipReply (p : List Byte)
  | slipSetUsed
  | slipSendChar
  | slipClearUsed
  /-- `from_ap_input` is called with a frame, which is `p` once it is copied and checksummed. -/
  | apInput (p : List Byte)
  | apTestUsed
  /-- The driver is short of buffers. -/
  | apDrop
  | apCopy
  | apSendChar
  | apReturn
  deriving DecidableEq, Repr

def taskStep (s : UartState) : TaskStep → Option UartState
  | .slipReply p =>
    match s.slip with
    | .receiving => some { s with slip := .replying p }
    | _ => none
  | .slipSetUsed =>
    match s.slip with
    | .replying p => some { s with slip := .sending (sendChars p), slipUsed := true }
    | _ => none
  | .slipSendChar =>
    match s.slip with
    | .sending (c :: rest) => some { s with slip := .sending rest, written := s.written ++ [c] }
    | _ => none
  | .slipClearUsed =>
    match s.slip with
    | .sending [] => some { s with slip := .receiving, slipUsed := false }
    | _ => none
  | .apInput p =>
    match s.ap with
    | .waiting => some { s with ap := .entered p }
    | _ => none
  | .apTestUsed =>
    match s.ap with
    | .entered p => some { s with ap := if s.slipUsed then .waiting else .admitted p }
    | _ => none
  | .apDrop =>
    match s.ap with
    | .admitted _ => some { s with ap := .waiting }
    | _ => none
  | .apCopy =>
    match s.ap with
    | .admitted p => some { s with ap := .sending (sendChars p) }
    | _ => none
  | .apSendChar =>
    match s.ap with
    | .sending (c :: rest) => some { s with ap := .sending rest, written := s.written ++ [c] }
    | _ => none
  | .apReturn =>
    match s.ap with
    | .sending [] => some { s with ap := .waiting }
    | _ => none

/-- The task that sends a packet. -/
inductive UartTask where
  | slip
  | ap
  deriving DecidableEq, Repr

/-- The module's UART with a record of what its tasks were asked to send, of the packets that they
are sending, and of those whose last byte is written. -/
structure UartLog where
  state : UartState
  slipPacket : List Byte
  apPacket : List Byte
  sent : List (UartTask × List Byte)
  refused : List (List Byte)
  steps : List TaskStep
  deriving DecidableEq

namespace UartLog

def init : UartLog := ⟨.init, [], [], [], [], []⟩

/-- The packet that a step completes, in the state `s` behind it. -/
def completed (w : UartLog) (s : UartState) : TaskStep → List (UartTask × List Byte)
  | .slipSendChar => if s.slip = .sending [] then [(.slip, w.slipPacket)] else []
  | .apSendChar => if s.ap = .sending [] then [(.ap, w.apPacket)] else []
  | _ => []

def startedSlip (w : UartLog) : TaskStep → List Byte
  | .slipSetUsed =>
    match w.state.slip with
    | .replying p => p
    | _ => w.slipPacket
  | _ => w.slipPacket

def startedAp (w : UartLog) : TaskStep → List Byte
  | .apCopy =>
    match w.state.ap with
    | .admitted p => p
    | _ => w.apPacket
  | _ => w.apPacket

/-- The packet of the access point that a step gives up. -/
def givenUp (w : UartLog) : TaskStep → List (List Byte)
  | .apTestUsed =>
    match w.state.ap with
    | .entered p => if w.state.slipUsed then [p] else []
    | _ => []
  | .apDrop =>
    match w.state.ap with
    | .admitted p => [p]
    | _ => []
  | _ => []

def step (w : UartLog) (a : TaskStep) : Option UartLog :=
  (taskStep w.state a).map (fun s =>
    { state := s
      slipPacket := w.startedSlip a
      apPacket := w.startedAp a
      sent := w.sent ++ w.completed s a
      refused := w.refused ++ w.givenUp a
      steps := w.steps ++ [a] })

/-- The bytes of the frames that have been sent. -/
def sentBytes (w : UartLog) : List Byte := w.sent.flatMap (fun m => sendChars m.2)

def ofTask (t : UartTask) (sent : List (UartTask × List Byte)) : List (List Byte) :=
  sent.filterMap (fun m => if m.1 = t then some m.2 else none)

/-- The reply that is not sent to its end. -/
def slipUnderWay (w : UartLog) : List (List Byte) :=
  match w.state.slip with
  | .receiving => []
  | .replying p => [p]
  | .sending [] => []
  | .sending (_ :: _) => [w.slipPacket]

/-- The packet of the access point that is neither sent to its end nor given up. -/
def apUnderWay (w : UartLog) : List (List Byte) :=
  match w.state.ap with
  | .waiting => []
  | .entered p => [p]
  | .admitted p => [p]
  | .sending [] => []
  | .sending (_ :: _) => [w.apPacket]

end UartLog

end EthoSlip
