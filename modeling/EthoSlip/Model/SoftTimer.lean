import EthoSlip.Lib.Run
import EthoSlip.Model.Uart

/-!
# Software timers

`soft_timer.c`. A callback is a value of `κ`; what it does is given by the program around the
timers, whose state is in `ω`. It may create and delete timers, its own included.
-/

namespace EthoSlip
open Lib

abbrev maxTimer : Nat := 10

instance : NeZero maxTimer := ⟨by decide⟩

structure SoftTimer (κ : Type) where
  isCircle : Byte
  on : Byte
  timeout : UInt32
  timerCb : κ
  count : UInt64
  deriving DecidableEq, Repr

abbrev TimerTable (κ : Type) := Fin maxTimer → SoftTimer κ

def softTimerInit {κ : Type} (softTimerDefault : κ) : TimerTable κ :=
  fun _ => ⟨0, 0, 1000, softTimerDefault, 0⟩

/-- The program around the timers: where it keeps `timer[]`, how `SOFT_TIMER_GET_TICK_COUNT()` reads
its clock, and what its callbacks do. -/
structure TimerHost (κ ω : Type) where
  timer : ω → TimerTable κ
  setTimer : TimerTable κ → ω → ω
  getTickCount : ω → UInt64 × ω

namespace TimerHost

variable {κ ω : Type} (host : TimerHost κ ω)

def softTimerCreate (id : Nat) (on isCircle : Byte) (timerCb : κ) (timeout : UInt32) (w : ω) :
    ω × Int :=
  if h : id < maxTimer then
    let (count, w) := host.getTickCount w
    (host.setTimer (Function.update (host.timer w) ⟨id, h⟩
      ⟨isCircle, on, timeout, timerCb, count⟩) w, id)
  else (w, -1)

def softTimerDelete (id : Nat) (w : ω) : ω × Int :=
  if h : id < maxTimer then
    let slot := host.timer w ⟨id, h⟩
    if slot.on = 0 then (w, -1)
    else (host.setTimer (Function.update (host.timer w) ⟨id, h⟩ { slot with on := 0 }) w, 0)
  else (w, -1)

/-- Writes one slot, which is read again at that time. -/
def modifySlot (i : Fin maxTimer) (f : SoftTimer κ → SoftTimer κ) (w : ω) : ω :=
  host.setTimer (Function.update (host.timer w) i (f (host.timer w i))) w

variable (call : κ → ω → Option ω)

/-- A timer that is due. Its callback has returned when `count` is written. -/
def softTimerFire (i : Fin maxTimer) (w : ω) : Option ω := do
  let w := if (host.timer w i).isCircle = 0 then host.modifySlot i ({ · with on := 0 }) w else w
  let w ← call (host.timer w i).timerCb w
  let (count, w) := host.getTickCount w
  return host.modifySlot i ({ · with count := count }) w

/-- One turn of the loop of `soft_timer_proc`. -/
def softTimerTurn (w : ω) (i : Fin maxTimer) : Option ω :=
  if (host.timer w i).on = 1 then
    let (now, w) := host.getTickCount w
    if (host.timer w i).timeout.toUInt64 ≤ now - (host.timer w i).count then
      host.softTimerFire call i w
    else some w
  else some w

def softTimerProc (w : ω) : Option ω :=
  run (host.softTimerTurn call) w (List.finRange maxTimer)

lemma softTimerTurn_off {w : ω} {i : Fin maxTimer} (h : (host.timer w i).on ≠ 1) :
    host.softTimerTurn call w i = some w := by
  rw [softTimerTurn, if_neg h]

end TimerHost

end EthoSlip
