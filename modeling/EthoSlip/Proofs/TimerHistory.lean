import EthoSlip.Model.TimerHistory

/-!
# The timers and their history

Each operation and each turn of `soft_timer_proc` as an equation on the state with its history, and
the proof that the history does not change what the program does.
-/

namespace EthoSlip
open Lib

variable {κ : Type} {clock : Nat → UInt64} {script : Nat → κ → List (TimerOp κ)}

/-- The state of a program shows, through `f`, the state of another one with the same timers and the
same clock. -/
structure TimerHost.Shows {ω ω' : Type} (host : TimerHost κ ω) (host' : TimerHost κ ω')
    (f : ω → ω') : Prop where
  timer : ∀ w, host'.timer (f w) = host.timer w
  setTimer : ∀ timer w, host'.setTimer timer (f w) = f (host.setTimer timer w)
  getTickCount : ∀ w,
    host'.getTickCount (f w) = ((host.getTickCount w).1, f (host.getTickCount w).2)

namespace TimerHost.Shows

variable {ω ω' : Type} {host : TimerHost κ ω} {host' : TimerHost κ ω'} {f : ω → ω'}

lemma softTimerCreate (h : host.Shows host' f) (n : Nat) (on isCircle : Byte) (timerCb : κ)
    (timeout : UInt32) (w : ω) :
    host'.softTimerCreate n on isCircle timerCb timeout (f w) =
      (host.softTimerCreate n on isCircle timerCb timeout w).map f id := by
  unfold TimerHost.softTimerCreate
  split_ifs
  · simp only [h.getTickCount, h.timer, h.setTimer]
    rfl
  · rfl

lemma softTimerDelete (h : host.Shows host' f) (n : Nat) (w : ω) :
    host'.softTimerDelete n (f w) = (host.softTimerDelete n w).map f id := by
  unfold TimerHost.softTimerDelete
  split_ifs with hn
  · simp only [h.timer, h.setTimer]
    split_ifs <;> rfl
  · rfl

lemma modifySlot (h : host.Shows host' f) (i : Fin maxTimer) (g : SoftTimer κ → SoftTimer κ)
    (w : ω) : host'.modifySlot i g (f w) = f (host.modifySlot i g w) := by
  rw [TimerHost.modifySlot, TimerHost.modifySlot, h.timer, h.setTimer]

section Call

variable {call : κ → ω → Option ω} {call' : κ → ω' → Option ω'}

lemma softTimerFire (h : host.Shows host' f)
    (hcall : ∀ timerCb w, (call timerCb w).map f = call' timerCb (f w)) (i : Fin maxTimer) (w : ω) :
    (host.softTimerFire call i w).map f = host'.softTimerFire call' i (f w) := by
  have hcalled (timerCb : κ) (w : ω) :
      ((call timerCb w).bind (fun w => some (host.modifySlot i
        ({ · with count := (host.getTickCount w).1 }) (host.getTickCount w).2))).map f =
      (call' timerCb (f w)).bind (fun w => some (host'.modifySlot i
        ({ · with count := (host'.getTickCount w).1 }) (host'.getTickCount w).2)) := by
    rw [← hcall]
    cases call timerCb w with
    | none => rfl
    | some w' =>
      rw [Option.bind_some, Option.map_some, Option.map_some, Option.bind_some, h.getTickCount,
        h.modifySlot]
  unfold TimerHost.softTimerFire
  rw [h.timer, h.modifySlot]
  split_ifs
  · dsimp only
    rw [h.timer]
    exact hcalled _ _
  · dsimp only
    rw [h.timer]
    exact hcalled _ _

lemma softTimerTurn (h : host.Shows host' f)
    (hcall : ∀ timerCb w, (call timerCb w).map f = call' timerCb (f w)) (w : ω) (i : Fin maxTimer) :
    (host.softTimerTurn call w i).map f = host'.softTimerTurn call' (f w) i := by
  unfold TimerHost.softTimerTurn
  rw [h.timer]
  split_ifs with hon
  · simp only [h.getTickCount, h.timer]
    split_ifs
    · exact h.softTimerFire hcall i _
    · rfl
  · rfl

end Call

end TimerHost.Shows

lemma historyOp_create (s : TimerHistory κ) (id : Fin maxTimer) (on isCircle : Byte) (timerCb : κ)
    (timeout : UInt32) :
    historyOp clock s (.create id on isCircle timerCb timeout) =
      { s with
        timer := Function.update s.timer id ⟨isCircle, on, timeout, timerCb, clock s.clockReads⟩
        clockReads := s.clockReads + 1
        tick := clock s.clockReads
        events := s.events ++
          [.created id ⟨isCircle, on, timeout, timerCb, clock s.clockReads⟩] } := by
  rw [historyOp, TimerHost.softTimerCreate, dif_pos id.isLt]
  simp only [historyHost, TimerHistory.record, Fin.eta]

lemma historyOp_delete (s : TimerHistory κ) (id : Fin maxTimer) :
    historyOp clock s (.delete id) =
      if (s.timer id).on = 0 then s
      else { s with
        timer := Function.update s.timer id { s.timer id with on := 0 }
        events := s.events ++ [.deleted id] } := by
  rw [historyOp, TimerHost.softTimerDelete, dif_pos id.isLt]
  simp only [historyHost, TimerHistory.record, Fin.eta]
  by_cases hoff : (s.timer id).on = 0
  · simp only [hoff, if_true]
    rfl
  · simp only [hoff, if_false, if_true]

def TimerHistory.readClock (clock : Nat → UInt64) (s : TimerHistory κ) : TimerHistory κ :=
  { s with clockReads := s.clockReads + 1, tick := clock s.clockReads }

/-- The slot as its callback finds it. -/
def SoftTimer.called (slot : SoftTimer κ) : SoftTimer κ :=
  if slot.isCircle = 0 then { slot with on := 0 } else slot

def TimerHistory.fire (i : Fin maxTimer) (s : TimerHistory κ) : TimerHistory κ :=
  { s with
    timer := Function.update s.timer i (s.timer i).called
    calls := s.calls + 1
    events := s.events ++ [.fired i s.tick] }

/-- `timer[i].count = SOFT_TIMER_GET_TICK_COUNT();` -/
def TimerHistory.count (clock : Nat → UInt64) (i : Fin maxTimer) (s : TimerHistory κ) :
    TimerHistory κ :=
  { s.readClock clock with
    timer := Function.update s.timer i { s.timer i with count := clock s.clockReads } }

@[simp] lemma historyHost_timer (s : TimerHistory κ) : (historyHost clock).timer s = s.timer := rfl

@[simp] lemma historyHost_getTickCount (s : TimerHistory κ) :
    (historyHost clock).getTickCount s = (clock s.clockReads, s.readClock clock) := rfl

@[simp] lemma historyHost_modifySlot (i : Fin maxTimer) (f : SoftTimer κ → SoftTimer κ)
    (s : TimerHistory κ) : (historyHost clock).modifySlot i f s =
      { s with timer := Function.update s.timer i (f (s.timer i)) } := rfl

lemma historyHost_fire (clock : Nat → UInt64) (script : Nat → κ → List (TimerOp κ))
    (i : Fin maxTimer) (s : TimerHistory κ) :
    (historyHost clock).softTimerFire (historyCallback clock script i) i s =
      some (((script s.calls (s.timer i).timerCb).foldl (historyOp clock) (s.fire i)).count
        clock i) := by
  unfold TimerHost.softTimerFire
  by_cases honce : (s.timer i).isCircle = 0
  · have hcalled : (s.timer i).called = { s.timer i with on := 0 } := if_pos honce
    rw [historyHost_timer, if_pos honce, historyHost_modifySlot, TimerHistory.fire, hcalled]
    simp only [historyHost_timer, Function.update_self]
    rfl
  · have hcalled : (s.timer i).called = s.timer i := if_neg honce
    rw [historyHost_timer, if_neg honce, TimerHistory.fire, hcalled, Function.update_eq_self]
    rfl

/-- What a turn of the loop of `soft_timer_proc` does. -/
lemma historyHost_turn (i : Fin maxTimer) (s : TimerHistory κ) :
    (historyHost clock).softTimerTurn (historyCallback clock script i) s i =
      if (s.timer i).on = 1 then
        if (s.timer i).timeout.toUInt64 ≤ clock s.clockReads - (s.timer i).count then
          some (((script s.calls (s.timer i).timerCb).foldl (historyOp clock)
            ((s.readClock clock).fire i)).count clock i)
        else some (s.readClock clock)
      else some s := by
  have hfire := historyHost_fire clock script i (s.readClock clock)
  unfold TimerHost.softTimerTurn
  simp only [historyHost_getTickCount, historyHost_timer, hfire]
  rfl

lemma historyHost_shows :
    (historyHost (κ := κ) clock).Shows (runHost clock) TimerHistory.toTimerRun :=
  ⟨fun _ => rfl, fun _ _ => rfl, fun _ => rfl⟩

lemma historyOp_run (s : TimerHistory κ) (op : TimerOp κ) :
    (historyOp clock s op).toTimerRun = runOp clock s.toTimerRun op := by
  cases op with
  | create id on isCircle timerCb timeout =>
    rw [runOp, historyHost_shows.softTimerCreate]
    rfl
  | delete id =>
    rw [runOp, historyHost_shows.softTimerDelete, historyOp]
    simp only
    split_ifs <;> rfl

lemma foldl_historyOp_run (s : TimerHistory κ) (ops : List (TimerOp κ)) :
    (ops.foldl (historyOp clock) s).toTimerRun = ops.foldl (runOp clock) s.toTimerRun := by
  induction ops generalizing s with
  | nil => rfl
  | cons op ops ih => rw [List.foldl_cons, ih, historyOp_run, List.foldl_cons]

/-- The history only watches: what it leaves out is a run of `soft_timer.c` on its table. -/
theorem historyStep_run (clock : Nat → UInt64) (script : Nat → κ → List (TimerOp κ))
    (s : TimerHistory κ) (step : TimerStep κ) :
    (historyStep clock script s step).map TimerHistory.toTimerRun =
      runStep clock script s.toTimerRun step := by
  cases step with
  | op op => exact congrArg some (historyOp_run s op)
  | softTimerProc =>
    have hcall (i : Fin maxTimer) (timerCb : κ) (s : TimerHistory κ) :
        (historyCallback clock script i timerCb s).map TimerHistory.toTimerRun =
          runCallback clock script timerCb s.toTimerRun := by
      rw [historyCallback, Option.map_some, foldl_historyOp_run]
      rfl
    exact run_map (fun s i => historyHost_shows.softTimerTurn (hcall i) s i) s _

end EthoSlip
