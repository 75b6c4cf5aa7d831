import EthoSlip.Model.SoftTimer

/-!
# Histories of the software timers

A program that creates and deletes timers and calls `soft_timer_proc`, in any order, with callbacks
that do the same to any slot. Beside the table, which is all that the program itself has, the state
keeps the history of the slots.
-/

namespace EthoSlip
open Lib

/-- What a program or a callback may do to the timers. -/
inductive TimerOp (κ : Type) where
  | create (id : Fin maxTimer) (on isCircle : Byte) (timerCb : κ) (timeout : UInt32)
  | delete (id : Fin maxTimer)
  deriving DecidableEq, Repr

inductive TimerStep (κ : Type) where
  | op (op : TimerOp κ)
  | softTimerProc
  deriving DecidableEq, Repr

/-- The timers, with the numbers of clock readings and of callback calls so far. -/
structure TimerRun (κ : Type) where
  timer : TimerTable κ
  clockReads : Nat
  calls : Nat

inductive TimerEvent (κ : Type) where
  /-- `soft_timer_create` was called: the slot that it asks for, with the clock at the call. -/
  | created (i : Fin maxTimer) (slot : SoftTimer κ)
  /-- `soft_timer_delete` has succeeded. -/
  | deleted (i : Fin maxTimer)
  /-- The callback of the slot is called; `now` is the reading of the clock that made it due. -/
  | fired (i : Fin maxTimer) (now : UInt64)
  deriving DecidableEq, Repr

/-- A run with its history; `tick` is the last reading of the clock. -/
structure TimerHistory (κ : Type) extends TimerRun κ where
  tick : UInt64
  events : List (TimerEvent κ)

def TimerHistory.init {κ : Type} (softTimerDefault : κ) : TimerHistory κ where
  timer := softTimerInit softTimerDefault
  clockReads := 0
  calls := 0
  tick := 0
  events := []

section History

/-! `clock` are the readings of the clock and `script` is what the callbacks do, both in the order of
the calls. -/

variable {κ : Type} (clock : Nat → UInt64) (script : Nat → κ → List (TimerOp κ))

def runHost : TimerHost κ (TimerRun κ) where
  timer := TimerRun.timer
  setTimer := fun timer s => { s with timer := timer }
  getTickCount := fun s => (clock s.clockReads, { s with clockReads := s.clockReads + 1 })

def runOp (s : TimerRun κ) : TimerOp κ → TimerRun κ
  | .create id on isCircle timerCb timeout =>
    ((runHost clock).softTimerCreate id on isCircle timerCb timeout s).1
  | .delete id => ((runHost clock).softTimerDelete id s).1

def runCallback (timerCb : κ) (s : TimerRun κ) : Option (TimerRun κ) :=
  some ((script s.calls timerCb).foldl (runOp clock) { s with calls := s.calls + 1 })

def runStep (s : TimerRun κ) : TimerStep κ → Option (TimerRun κ)
  | .op op => some (runOp clock s op)
  | .softTimerProc => (runHost clock).softTimerProc (runCallback clock script) s

/-! ### The program with its history -/

def historyHost : TimerHost κ (TimerHistory κ) where
  timer := fun s => s.timer
  setTimer := fun timer s => { s with timer := timer }
  getTickCount := fun s => (clock s.clockReads,
    { s with clockReads := s.clockReads + 1, tick := clock s.clockReads })

def TimerHistory.record (e : TimerEvent κ) (s : TimerHistory κ) : TimerHistory κ :=
  { s with events := s.events ++ [e] }

def historyOp (s : TimerHistory κ) : TimerOp κ → TimerHistory κ
  | .create id on isCircle timerCb timeout =>
    let asked := ⟨isCircle, on, timeout, timerCb, clock s.clockReads⟩
    let (s, _) := (historyHost clock).softTimerCreate id on isCircle timerCb timeout s
    s.record (.created id asked)
  | .delete id =>
    let (s, r) := (historyHost clock).softTimerDelete id s
    if r = 0 then s.record (.deleted id) else s

/-- The callback of slot `i` is called. -/
def historyCallback (i : Fin maxTimer) (timerCb : κ) (s : TimerHistory κ) :
    Option (TimerHistory κ) :=
  let called := { s.record (.fired i s.tick) with calls := s.calls + 1 }
  some ((script s.calls timerCb).foldl (historyOp clock) called)

def historyStep (s : TimerHistory κ) : TimerStep κ → Option (TimerHistory κ)
  | .op op => some (historyOp clock s op)
  | .softTimerProc =>
    run (fun s i => (historyHost clock).softTimerTurn (historyCallback clock script i) s i) s
      (List.finRange maxTimer)

end History

end EthoSlip
