import EthoSlip.Model.PcMain
import EthoSlip.Proofs.Requests

/-!
# The phases of bring-up

The main loop starts, then waits for the hardware address, and then has obtained it for good. The
API status, the retry timer, `wifi_status` and the history belong together in each of these phases;
requests and passes of the timers stay within them.
-/

namespace EthoSlip
open Lib

def bringUpOrder : List WifiStatus :=
  [.notHwaddr, .free, .gotHwaddr, .connected, .dhcpNotIp, .dhcpGotIp, .runing]

def WifiStatus.rank : WifiStatus → Nat
  | .notHwaddr => 0
  | .free => 1
  | .gotHwaddr => 2
  | .connected => 3
  | .dhcpNotIp => 4
  | .dhcpGotIp => 5
  | .runing => 6

/-- The values that `wifi_status` has had, the initial one included. -/
def wifiStatuses (history : List Event) : List WifiStatus :=
  .notHwaddr :: history.filterMap (fun | .wifiStatus status => some status | _ => none)

lemma bringUpOrder_take (status : WifiStatus) :
    bringUpOrder.take (status.rank + 1) = bringUpOrder.take status.rank ++ [status] := by
  cases status with
  | notHwaddr | gotHwaddr | connected | dhcpNotIp | dhcpGotIp | runing | free => rfl

/-- No request comes behind the status `WIFI_GOT_HWADDR`. -/
def NoLateRequest (e e' : Event) : Prop := e = .wifiStatus .gotHwaddr → e' ≠ .hwaddrRequest

lemma wifiStatuses_append_status (h : List Event) (status : WifiStatus) :
    wifiStatuses (h ++ [.wifiStatus status]) = wifiStatuses h ++ [status] := by
  simp [wifiStatuses]

lemma wifiStatuses_append_request (h : List Event) :
    wifiStatuses (h ++ [.hwaddrRequest]) = wifiStatuses h := by
  simp [wifiStatuses]

lemma mem_wifiStatuses {h : List Event} {status : WifiStatus} (hmem : .wifiStatus status ∈ h) :
    status ∈ wifiStatuses h := by
  apply List.mem_cons_of_mem
  exact List.mem_filterMap.mpr ⟨_, hmem, rfl⟩

lemma ordered_of_not_mem {h : List Event} (hgot : .wifiStatus .gotHwaddr ∉ h) :
    h.Pairwise NoLateRequest := by
  apply List.Pairwise.imp_of_mem (R := fun _ _ => True)
  · intro e e' he _ _ hgot'
    rw [hgot'] at he
    exact absurd he hgot
  · exact List.pairwise_of_forall (fun _ _ => trivial)

lemma ordered_append {h : List Event} (hh : h.Pairwise NoLateRequest) {e : Event}
    (he : e ≠ .hwaddrRequest) : (h ++ [e]).Pairwise NoLateRequest := by
  rw [List.pairwise_append]
  refine ⟨hh, List.pairwise_singleton _ _, ?_⟩
  intro e' _ e'' he'' _
  rw [List.mem_singleton.mp he'']
  exact he

section Phases

variable (clock : Nat → UInt64) (malloc : Nat → (n : Nat) → Malloc n)

/-- Every `malloc` of `wlan_api_get_hwaddr` so far has succeeded. -/
def Allocated (s : PcState) : Prop := ∀ k < s.mallocs, (malloc k (sizeofDefault + 2)).isSome

structure RetryArmed (slot : SoftTimer TimerCb) : Prop where
  on : slot.on = 1
  once : slot.isCircle = 0
  timerCb : slot.timerCb = .getHwaddrTimeoutCallback

/-- The retry timer runs unless a `malloc` has failed. -/
def RetryPending (s : PcState) : Prop :=
  RetryArmed (s.timer 1) ∧ Allocated malloc s ∨ (s.timer 1).on ≠ 1 ∧ ¬Allocated malloc s

/-- The address has not been obtained; only the retry timer may be in use. -/
structure Unobtained (s : PcState) : Prop where
  uart : s.uart.gsTxPtr = 0
  api : s.api.gsWlanApiStatus = wlanApiTypeFree ∨
    s.api = ⟨wlanApiTypeGetHwaddr, some .getHwaddrCallback⟩
  others : ∀ i, i ≠ 1 → (s.timer i).on ≠ 1 ∧ (s.timer i).timerCb ≠ .getHwaddrTimeoutCallback
  calls : .hwaddrCallback ∉ s.history
  writes : .hwaddrWritten ∉ s.history

/-- A request has been made, and its reply has not come. -/
structure Waiting (s : PcState) : Prop extends Unobtained s where
  status : s.wifiStatus = .free
  retry : RetryPending malloc s
  statuses : wifiStatuses s.history = [.notHwaddr, .free]

/-- The address has been obtained. -/
structure Obtained (s : PcState) : Prop where
  uart : s.uart.gsTxPtr = 0
  status : 2 ≤ s.wifiStatus.rank
  api : s.api.gsWlanApiStatus = wlanApiTypeFree
  retry : (s.timer 1).on ≠ 1
  others : ∀ i, i ≠ 1 → (s.timer i).timerCb ≠ .getHwaddrTimeoutCallback
  calls : s.history.count .hwaddrCallback = 1
  writes : s.history.count .hwaddrWritten = 1
  statuses : wifiStatuses s.history = bringUpOrder.take (s.wifiStatus.rank + 1)
  ordered : s.history.Pairwise NoLateRequest

/-- The phase in which an iteration of the main loop starts. -/
def Phase (hwaddr : Vector Byte 6) (s : PcState) : Prop :=
  s = .init hwaddr ∨ Waiting malloc s ∨ Obtained s

variable {clock malloc} {s : PcState}

lemma Waiting.got_not_mem (h : Waiting malloc s) : .wifiStatus .gotHwaddr ∉ s.history := by
  intro hmem
  have hstatus := mem_wifiStatuses hmem
  rw [h.statuses] at hstatus
  simp at hstatus

/-- What `requestHwaddr` leaves when `malloc` fails. -/
def failedRequest (s : PcState) : PcState :=
  { s with
    api := { s.api with gsGetHwaddrSuccessCallback := some .getHwaddrCallback }
    mallocs := s.mallocs + 1 }

/-- What `requestHwaddr` leaves when the request has been sent. -/
def sentRequest (clock : Nat → UInt64) (uart : TxBuffer) (s : PcState) : PcState :=
  { s with
    api := ⟨wlanApiTypeGetHwaddr, some .getHwaddrCallback⟩
    timer := Function.update s.timer 1 ⟨0, 1, 2000, .getHwaddrTimeoutCallback, clock s.clockReads⟩
    uart := uart
    clockReads := s.clockReads + 1
    mallocs := s.mallocs + 1
    history := s.history ++ [.hwaddrRequest] }

lemma requestHwaddr_none (h : malloc s.mallocs (sizeofDefault + 2) = none) :
    requestHwaddr clock malloc s = some (failedRequest s) := by
  simp [requestHwaddr, getHwaddr, wlanApiGetHwaddr, h, failedRequest]

lemma requestHwaddr_some (clock : Nat → UInt64) {object : Vector Byte (sizeofDefault + 2)}
    (h : malloc s.mallocs (sizeofDefault + 2) = some object) (huart : s.uart.gsTxPtr = 0) :
    ∃ uart, requestHwaddr clock malloc s = some (sentRequest clock uart s) ∧ uart.gsTxPtr = 0 := by
  obtain ⟨uart, hsend, hptr, -⟩ :=
    wlanApiGetHwaddr_buffered object (some HwaddrCb.getHwaddrCallback) s.api s.uart huart
  refine ⟨uart, ?_, hptr⟩
  simp only [requestHwaddr, getHwaddr, h, hsend, Option.bind_eq_bind, Option.bind_some,
    Option.pure_def, le_refl, if_true]
  rfl

lemma allocated_succ (h : Allocated malloc s) {s' : PcState} (hs' : s'.mallocs = s.mallocs + 1) :
    Allocated malloc s' ↔ (malloc s.mallocs (sizeofDefault + 2)).isSome := by
  constructor
  · intro h'
    exact h' s.mallocs (by omega)
  · intro hlast k hk
    obtain hk | rfl := Nat.lt_succ_iff_lt_or_eq.mp (hs' ▸ hk)
    · exact h k hk
    · exact hlast

/-- A request while the retry timer is off: the timer runs behind it if `malloc` succeeds. -/
lemma Unobtained.request (h : Unobtained s) (clock : Nat → UInt64) (halloc : Allocated malloc s)
    (hoff : (s.timer 1).on ≠ 1) :
    ∃ s', requestHwaddr clock malloc s = some s' ∧ Unobtained s' ∧ RetryPending malloc s' ∧
      s'.wifiStatus = s.wifiStatus ∧ wifiStatuses s'.history = wifiStatuses s.history := by
  cases hmalloc : malloc s.mallocs (sizeofDefault + 2) with
  | none =>
    refine ⟨failedRequest s, requestHwaddr_none hmalloc, ?_, .inr ⟨hoff, ?_⟩, rfl, rfl⟩
    · refine ⟨h.uart, ?_, h.others, h.calls, h.writes⟩
      obtain hfree | hget := h.api
      · exact .inl hfree
      · right
        simp [failedRequest, hget]
    · rw [allocated_succ halloc rfl, hmalloc]
      simp
  | some object =>
    obtain ⟨uart, hsend, hptr⟩ := requestHwaddr_some clock hmalloc h.uart
    refine ⟨sentRequest clock uart s, hsend, ?_, .inl ⟨?_, ?_⟩, rfl, ?_⟩
    · refine ⟨hptr, .inr rfl, ?_, ?_, ?_⟩
      · intro i hi
        have hi' : (sentRequest clock uart s).timer i = s.timer i := Function.update_of_ne hi _ _
        rw [hi']
        exact h.others i hi
      · simpa [sentRequest] using h.calls
      · simpa [sentRequest] using h.writes
    · have hslot : (sentRequest clock uart s).timer 1 =
          ⟨0, 1, 2000, .getHwaddrTimeoutCallback, clock s.clockReads⟩ := by
        simp [sentRequest]
      rw [hslot]
      exact ⟨rfl, rfl, rfl⟩
    · rw [allocated_succ halloc rfl, hmalloc]
      rfl
    · exact wifiStatuses_append_request s.history

lemma Unobtained.modifySlot (h : Unobtained s) (clock : Nat → UInt64)
    (f : SoftTimer TimerCb → SoftTimer TimerCb) :
    Unobtained ((pcTimers clock).modifySlot 1 f s) := by
  refine ⟨h.uart, h.api, ?_, h.calls, h.writes⟩
  intro i hi
  have hi' : ((pcTimers clock).modifySlot 1 f s).timer i = s.timer i := Function.update_of_ne hi _ _
  rw [hi']
  exact h.others i hi

lemma modifySlot_self (clock : Nat → UInt64) (s : PcState)
    (f : SoftTimer TimerCb → SoftTimer TimerCb) (i : Fin maxTimer) :
    ((pcTimers clock).modifySlot i f s).timer i = f (s.timer i) := Function.update_self ..

lemma RetryPending.count (h : RetryPending malloc s) (count : UInt64) :
    RetryPending malloc ((pcTimers clock).modifySlot 1 ({ · with count := count }) s) := by
  have hslot := modifySlot_self clock s ({ · with count := count }) 1
  obtain ⟨harmed, halloc⟩ | ⟨hoff, halloc⟩ := h
  · refine .inl ⟨?_, halloc⟩
    rw [hslot]
    exact ⟨harmed.on, harmed.once, harmed.timerCb⟩
  · refine .inr ⟨?_, halloc⟩
    rw [hslot]
    exact hoff

def PcState.tick (s : PcState) : PcState := { s with clockReads := s.clockReads + 1 }

lemma Unobtained.tick (h : Unobtained s) : Unobtained s.tick :=
  ⟨h.uart, h.api, h.others, h.calls, h.writes⟩

lemma Waiting.tick (h : Waiting malloc s) : Waiting malloc s.tick :=
  ⟨h.toUnobtained.tick, h.status, h.retry, h.statuses⟩

/-- The retry timer is switched off before its callback switches it on again. -/
lemma Waiting.fire (h : Waiting malloc s) (harmed : RetryArmed (s.timer 1))
    (halloc : Allocated malloc s) :
    ∃ s', (pcTimers clock).softTimerFire (callTimer clock malloc) 1 s = some s' ∧
      Waiting malloc s' := by
  let off := (pcTimers clock).modifySlot 1 ({ · with on := 0 }) s
  have hslot : off.timer 1 = { s.timer 1 with on := 0 } := modifySlot_self clock s _ 1
  have hoff : (off.timer 1).on ≠ 1 := by
    rw [hslot]
    simp
  obtain ⟨s₁, hrequest, hs₁, hretry, hstatus, hstatuses⟩ :=
    (h.toUnobtained.modifySlot clock _).request clock halloc hoff
  have hcall : callTimer clock malloc (off.timer 1).timerCb off = some s₁ := by
    rw [hslot, harmed.timerCb]
    exact hrequest
  refine ⟨(pcTimers clock).modifySlot 1 ({ · with count := clock s₁.clockReads }) s₁.tick, ?_, ?_⟩
  · have honce : ((pcTimers clock).timer s 1).isCircle = 0 := harmed.once
    rw [TimerHost.softTimerFire, if_pos honce]
    change (callTimer clock malloc (off.timer 1).timerCb off).bind _ = _
    rw [hcall]
    rfl
  · refine ⟨hs₁.tick.modifySlot clock _, ?_, ?_, ?_⟩
    · exact hstatus.trans h.status
    · exact RetryPending.count (s := s₁.tick) hretry _
    · exact hstatuses.trans h.statuses

lemma Waiting.turn (h : Waiting malloc s) (i : Fin maxTimer) :
    ∃ s', (pcTimers clock).softTimerTurn (callTimer clock malloc) s i = some s' ∧
      Waiting malloc s' := by
  by_cases hon : ((pcTimers clock).timer s i).on = 1
  · obtain rfl : i = 1 := by
      by_contra hi
      exact (h.others i hi).1 hon
    obtain ⟨harmed, halloc⟩ | ⟨hoff, -⟩ := h.retry
    · rw [TimerHost.softTimerTurn, if_pos hon]
      change ∃ s', (if (s.timer 1).timeout.toUInt64 ≤ clock s.clockReads - (s.timer 1).count then
        (pcTimers clock).softTimerFire (callTimer clock malloc) 1 s.tick else some s.tick) = some s' ∧ _
      split_ifs
      · exact h.tick.fire harmed halloc
      · exact ⟨s.tick, rfl, h.tick⟩
    · exact absurd hon hoff
  · exact ⟨s, TimerHost.softTimerTurn_off _ _ hon, h⟩

lemma Obtained.tick (h : Obtained s) : Obtained s.tick :=
  ⟨h.uart, h.status, h.api, h.retry, h.others, h.calls, h.writes, h.statuses, h.ordered⟩

lemma Obtained.modifySlot (h : Obtained s) {i : Fin maxTimer} (hi : i ≠ 1)
    {f : SoftTimer TimerCb → SoftTimer TimerCb} (hf : ∀ slot, (f slot).timerCb = slot.timerCb) :
    Obtained ((pcTimers clock).modifySlot i f s) := by
  refine ⟨h.uart, h.status, h.api, ?_, ?_, h.calls, h.writes, h.statuses, h.ordered⟩
  · have hretry : ((pcTimers clock).modifySlot i f s).timer 1 = s.timer 1 :=
      Function.update_of_ne hi.symm _ _
    rw [hretry]
    exact h.retry
  · intro j hj
    by_cases hji : j = i
    · rw [hji, modifySlot_self, hf]
      exact h.others i hi
    · have hother : ((pcTimers clock).modifySlot i f s).timer j = s.timer j :=
        Function.update_of_ne hji _ _
      rw [hother]
      exact h.others j hj

lemma callTimer_other {cb : TimerCb} (h : cb ≠ .getHwaddrTimeoutCallback) :
    callTimer clock malloc cb s = some s := by
  cases cb with
  | softTimerDefault => rfl
  | getHwaddrTimeoutCallback => exact absurd rfl h
  | udpDebugCallback => rfl

lemma Obtained.fire (h : Obtained s) {i : Fin maxTimer} (hi : i ≠ 1) :
    ∃ s', (pcTimers clock).softTimerFire (callTimer clock malloc) i s = some s' ∧ Obtained s' := by
  have hoff : Obtained (if ((pcTimers clock).timer s i).isCircle = 0 then
      (pcTimers clock).modifySlot i ({ · with on := 0 }) s else s) := by
    split_ifs
    · exact h.modifySlot hi (fun _ => rfl)
    · exact h
  rw [TimerHost.softTimerFire]
  generalize (if ((pcTimers clock).timer s i).isCircle = 0 then
    (pcTimers clock).modifySlot i ({ · with on := 0 }) s else s) = off at hoff ⊢
  have hcall : callTimer clock malloc ((pcTimers clock).timer off i).timerCb off = some off :=
    callTimer_other (hoff.others i hi)
  refine ⟨(pcTimers clock).modifySlot i ({ · with count := clock off.clockReads }) off.tick, ?_, ?_⟩
  · simp only [hcall, Option.bind_eq_bind, Option.bind_some, Option.pure_def]
    rfl
  · exact hoff.tick.modifySlot hi (fun _ => rfl)

lemma Obtained.turn (h : Obtained s) (i : Fin maxTimer) :
    ∃ s', (pcTimers clock).softTimerTurn (callTimer clock malloc) s i = some s' ∧ Obtained s' := by
  by_cases hon : ((pcTimers clock).timer s i).on = 1
  · have hi : i ≠ 1 := by
      rintro rfl
      exact h.retry hon
    rw [TimerHost.softTimerTurn, if_pos hon]
    change ∃ s', (if (s.timer i).timeout.toUInt64 ≤ clock s.clockReads - (s.timer i).count then
      (pcTimers clock).softTimerFire (callTimer clock malloc) i s.tick else some s.tick) = some s' ∧ _
    split_ifs
    · exact h.tick.fire hi
    · exact ⟨s.tick, rfl, h.tick⟩
  · exact ⟨s, TimerHost.softTimerTurn_off _ _ hon, h⟩

end Phases

end EthoSlip
