import EthoSlip.Model.Queue

/-!
# Hand-over between the threads of the PC stack

`slip_out_task_proc` puts each received frame into a `pbuf` and the `pbuf` into the queue, the main
loop takes it out and passes it on. Each step below is one access to what the threads share; both
threads may be preempted between any two steps. `queue_try_put` is the steps from `slipTestFull` to
`slipAdvance`, `queue_try_get` those from `mainTestEmpty` to `mainAdvance`.
-/

namespace EthoSlip

inductive Thread where
  | slip
  | main
  deriving DecidableEq, Repr

/-- Where `slip_out_task_proc` is, with its `p`. -/
inductive SlipOut where
  | receiving
  | received
  | allocated (p : Handle)
  | taken (p : Handle)
  | locked (p : Handle)
  | storing (p : Handle)
  | advancing (p : Handle)
  | refused (p : Handle)
  | unlocking
  deriving DecidableEq, Repr

/-- Where the main loop is, with its `p`, and with the `e` of `queue_try_get`. -/
inductive MainLoop where
  | start
  | locked
  | loading
  | advancing (e : BitVec 32)
  | unlocking (p : Handle)
  | got (p : Handle)
  | rejected (p : Handle)
  | releasing (p : Handle)
  deriving DecidableEq, Repr

/-- Why a frame does not reach the queue: `waiting` frames were in it. -/
inductive Drop where
  | noPbuf
  | queueFull (waiting : Nat)
  deriving DecidableEq, Repr

/-- What the threads share. A `pbuf` is known by the number of its allocation: `live` tells which one
is allocated at an address. `put` and `got` list those that went into the queue and those that came
out, `lwip` those that lwIP owns, `freed` the calls of `pbuf_free`; `received` counts the frames, and
`fault` is set by an access to an object that is not there. -/
structure HandOver where
  queue : SqQueue
  mutex : Option Thread
  slip : SlipOut
  main : MainLoop
  live : Handle → Option Nat
  allocated : Nat
  received : Nat
  put : List Nat
  got : List Nat
  lwip : List Nat
  freed : List Nat
  drops : List Drop
  fault : Bool

namespace HandOver

def init (base : Vector (BitVec 32) maxQSize) : HandOver where
  queue := qInit base
  mutex := none
  slip := .receiving
  main := .start
  live := fun _ => none
  allocated := 0
  received := 0
  put := []
  got := []
  lwip := []
  freed := []
  drops := []
  fault := false

/-- `pbuf_alloc` returns `p`. -/
def pbufAlloc (p : Handle) (s : HandOver) : HandOver :=
  { s with live := Function.update s.live p (some s.allocated), allocated := s.allocated + 1 }

/-- Any use of the `pbuf` at `p`. -/
def pbufUse (p : Handle) (s : HandOver) : HandOver :=
  if (s.live p).isSome then s else { s with fault := true }

def pbufFree (p : Handle) (s : HandOver) : HandOver :=
  match s.live p with
  | none => { s with fault := true }
  | some id => { s with live := Function.update s.live p none, freed := s.freed ++ [id] }

end HandOver

inductive HandOverStep where
  /-- A frame has passed `if_api_check`. -/
  | slipReceive
  | slipAlloc (result : Option Handle)
  | slipTake
  | slipLock
  | slipTestFull
  | slipStore
  | slipAdvance
  | slipFree
  | slipUnlock
  | mainLock
  | mainTestEmpty
  | mainLoad
  | mainAdvance
  | mainUnlock
  /-- `p` is NULL: the rest of the loop. -/
  | mainNull
  | mainRxProc (consumed : Bool)
  | mainInput (ok : Bool)
  | mainFree
  /-- lwIP frees a `pbuf` that it owns. -/
  | lwipFree (p : Handle)
  deriving DecidableEq, Repr

/-- An address that `pbuf_alloc` may return: it is not NULL, no live `pbuf` is there, and it
survives the casts of the queue. -/
def Allocatable (s : HandOver) (p : Handle) : Prop :=
  p ≠ 0 ∧ s.live p = none ∧ Handle.ofInt p.toInt = p

instance (s : HandOver) (p : Handle) : Decidable (Allocatable s p) :=
  inferInstanceAs (Decidable (_ ∧ _))

def handOverStep (s : HandOver) : HandOverStep → Option HandOver
  | .slipReceive =>
    match s.slip with
    | .receiving => some { s with slip := .received, received := s.received + 1 }
    | _ => none
  | .slipAlloc result =>
    match s.slip, result with
    | .received, none => some { s with slip := .receiving, drops := s.drops ++ [.noPbuf] }
    | .received, some p =>
      if Allocatable s p then some { s.pbufAlloc p with slip := .allocated p } else none
    | _, _ => none
  | .slipTake =>
    match s.slip with
    | .allocated p => some { s.pbufUse p with slip := .taken p }
    | _ => none
  | .slipLock =>
    match s.slip, s.mutex with
    | .taken p, none => some { s with slip := .locked p, mutex := some .slip }
    | _, _ => none
  | .slipTestFull =>
    match s.slip with
    | .locked p =>
      some (if s.queue.full then
        { s with
          slip := .refused p
          drops := s.drops ++ [.queueFull (s.put.length - s.got.length)] }
      else { s with slip := .storing p })
    | _ => none
  | .slipStore =>
    match s.slip with
    | .storing p =>
      match s.queue.storeRear p.toInt with
      | none => some { s with slip := .advancing p, fault := true }
      | some queue => some { s with slip := .advancing p, queue := queue }
    | _ => none
  | .slipAdvance =>
    match s.slip with
    | .advancing p =>
      some { s with
        slip := .unlocking
        queue := s.queue.advanceRear
        put := s.put ++ (s.live p).toList }
    | _ => none
  | .slipFree =>
    match s.slip with
    | .refused p => some { s.pbufFree p with slip := .unlocking }
    | _ => none
  | .slipUnlock =>
    match s.slip with
    | .unlocking => some { s with slip := .receiving, mutex := none }
    | _ => none
  | .mainLock =>
    match s.main, s.mutex with
    | .start, none => some { s with main := .locked, mutex := some .main }
    | _, _ => none
  | .mainTestEmpty =>
    match s.main with
    | .locked => some { s with main := if s.queue.empty then .unlocking 0 else .loading }
    | _ => none
  | .mainLoad =>
    match s.main with
    | .loading =>
      match s.queue.loadFront with
      | none => some { s with main := .unlocking 0, fault := true }
      | some e => some { s with main := .advancing e }
    | _ => none
  | .mainAdvance =>
    match s.main with
    | .advancing e =>
      some { s with
        main := .unlocking (Handle.ofInt e)
        queue := s.queue.advanceFront
        got := s.got ++ (s.live (Handle.ofInt e)).toList }
    | _ => none
  | .mainUnlock =>
    match s.main with
    | .unlocking p => some { s with main := .got p, mutex := none }
    | _ => none
  | .mainNull =>
    match s.main with
    | .got p => if p = 0 then some { s with main := .start } else none
    | _ => none
  | .mainRxProc consumed =>
    match s.main with
    | .got p =>
      if p = 0 then none
      else some { s.pbufUse p with main := if consumed then .releasing p else .rejected p }
    | _ => none
  | .mainInput ok =>
    match s.main with
    | .rejected p =>
      some (if ok then
        { s.pbufUse p with main := .start, lwip := s.lwip ++ (s.live p).toList }
      else { s.pbufUse p with main := .releasing p })
    | _ => none
  | .mainFree =>
    match s.main with
    | .releasing p => some { s.pbufFree p with main := .start }
    | _ => none
  | .lwipFree p =>
    match s.live p with
    | some id =>
      if id ∈ s.lwip then some { s.pbufFree p with lwip := s.lwip.erase id } else none
    | none => none

end EthoSlip
