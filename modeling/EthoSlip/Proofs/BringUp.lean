import EthoSlip.Proofs.BringUpPhases

/-!
# Bring-up of the PC stack

Received frames and `user_loop` move the main loop through its phases, forward only. It stays in
the phase of waiting when a `malloc` for a request fails, for only a request that was sent arms the
retry timer.
-/

namespace EthoSlip
open Lib

section Phases

variable {clock : Nat → UInt64} {malloc : Nat → (n : Nat) → Malloc n} {s : PcState}

lemma rxProc_free (p : Buf) (h : s.api.gsWlanApiStatus = wlanApiTypeFree) :
    rxProc clock p s = some (s, -1) :=
  pcApi.wlanApiRxProc_free (callHwaddr clock) p p.length h

lemma softTimerDelete_eq (clock : Nat → UInt64) (s : PcState) :
    ∃ timer, ((pcTimers clock).softTimerDelete 1 s).1 = { s with timer := timer } ∧
      (timer 1).on = 0 ∧ ∀ i, i ≠ 1 → timer i = s.timer i := by
  have hid : 1 < maxTimer := by decide
  rw [TimerHost.softTimerDelete, dif_pos hid]
  dsimp only
  split_ifs with hon
  · exact ⟨s.timer, rfl, hon, fun _ _ => rfl⟩
  · refine ⟨Function.update s.timer 1 { s.timer 1 with on := 0 }, rfl, ?_, ?_⟩
    · rw [Function.update_self]
    · intro i hi
      exact Function.update_of_ne hi _ _

def obtainedState (copied : Vector Byte 6) (timer : TimerTable TimerCb) (s : PcState) : PcState :=
  { s with
    timer := timer
    wifiStatus := .gotHwaddr
    hwaddr := copied
    history := s.history ++ [.hwaddrCallback] ++ [.hwaddrWritten] ++ [.wifiStatus .gotHwaddr] }

/-- The reply ends the waiting: the timer is off, and the API is free once the callback returns. -/
lemma Waiting.callback (h : Waiting malloc s) (clock : Nat → UInt64) (p : Buf) (hlen : 6 ≤ p.length) :
    ∃ s', getHwaddrCallback clock p 6 s = some s' ∧
      Obtained (pcApi.setApi { pcApi.api s' with gsWlanApiStatus := wlanApiTypeFree } s') := by
  obtain ⟨copied, hcopied⟩ := exists_copyArray s.hwaddr p 6 le_rfl hlen
  obtain ⟨timer, hdelete, hoff, hother⟩ := softTimerDelete_eq clock
    { s with hwaddr := copied, history := s.history ++ [.hwaddrCallback] ++ [.hwaddrWritten] }
  refine ⟨obtainedState copied timer s, ?_, ?_⟩
  · simp only [getHwaddrCallback, hcopied, hdelete, Option.bind_eq_bind, Option.bind_some,
      Option.pure_def]
    rfl
  · have hordered : (obtainedState copied timer s).history.Pairwise NoLateRequest := by
      apply ordered_append _ (by decide)
      apply ordered_append _ (by decide)
      apply ordered_append (ordered_of_not_mem h.got_not_mem) (by decide)
    refine ⟨h.uart, le_rfl, rfl, ?_, ?_, ?_, ?_, ?_, hordered⟩
    · change (timer 1).on ≠ 1
      rw [hoff]
      decide
    · intro i hi
      change (timer i).timerCb ≠ _
      rw [hother i hi]
      exact (h.others i hi).2
    · have hcalls := List.count_eq_zero.mpr h.calls
      simp [obtainedState, pcApi, hcalls]
    · have hwrites := List.count_eq_zero.mpr h.writes
      simp [obtainedState, pcApi, hwrites]
    · have hstatuses := h.statuses
      simp only [wifiStatuses, List.cons.injEq, true_and] at hstatuses
      simp [obtainedState, pcApi, wifiStatuses, hstatuses, bringUpOrder, WifiStatus.rank]

lemma Waiting.rxProc (h : Waiting malloc s) (clock : Nat → UInt64) (p : Buf) :
    ∃ s' r, rxProc clock p s = some (s', r) ∧ (s' = s ∨ r = 0 ∧ Obtained s') := by
  obtain hfree | hget := h.api
  · exact ⟨s, -1, rxProc_free p hfree, .inl rfl⟩
  have hapi : pcApi.api s = ⟨wlanApiTypeGetHwaddr, some .getHwaddrCallback⟩ := hget
  have hbusy : wlanApiTypeGetHwaddr ≠ wlanApiTypeFree := by decide
  by_cases hlen : isWlanApiFrameLen p.length = false
  · refine ⟨s, -1, ?_, .inl rfl⟩
    simp [EthoSlip.rxProc, ApiHost.wlanApiRxProc, hapi, hbusy, hlen]
  have hlen' : 14 < p.length := by
    simpa [isWlanApiFrameLen] using hlen
  obtain ⟨b, hframe⟩ := exists_isWlanApiFrame (p := p) hlen'.le
  obtain ⟨type, htype⟩ := exists_load (p := p) (i := offType) hlen'
  cases b with
  | false =>
    refine ⟨s, -1, ?_, .inl rfl⟩
    simp [EthoSlip.rxProc, ApiHost.wlanApiRxProc, hapi, hbusy, hlen, hframe]
  | true =>
    by_cases hret : type = wlanApiTypeGetHwaddrRet
    · have hsrc : 6 ≤ (p.drop offSrc).length := by
        rw [List.length_drop, offSrc]
        omega
      obtain ⟨s', hcall, hs'⟩ := h.callback clock (p.drop offSrc) hsrc
      have hcall' : callHwaddr clock .getHwaddrCallback (p.drop offSrc) 6 s = some s' := hcall
      refine ⟨_, 0, ?_, .inr ⟨rfl, hs'⟩⟩
      simp [EthoSlip.rxProc, ApiHost.wlanApiRxProc, hapi, hbusy, hlen, hframe, htype, hret, hcall']
    · refine ⟨s, 0, ?_, .inl rfl⟩
      simp [EthoSlip.rxProc, ApiHost.wlanApiRxProc, hapi, hbusy, hlen, hframe, htype, hret]

lemma Obtained.next (h : Obtained s) (status : WifiStatus)
    (hnext : status.rank = s.wifiStatus.rank + 1) : Obtained (s.setWifiStatus status) := by
  have hrank := h.status
  refine ⟨h.uart, ?_, h.api, h.retry, h.others, ?_, ?_, ?_, ?_⟩
  · change 2 ≤ status.rank
    omega
  · simpa [PcState.setWifiStatus] using h.calls
  · simpa [PcState.setWifiStatus] using h.writes
  · change wifiStatuses (s.history ++ [.wifiStatus status]) = bringUpOrder.take (status.rank + 1)
    rw [wifiStatuses_append_status, h.statuses, bringUpOrder_take status, hnext]
  · exact ordered_append h.ordered (by simp)

lemma Obtained.sent (h : Obtained s) {uart : TxBuffer} (huart : uart.gsTxPtr = 0) (mallocs : Nat) :
    Obtained { s with uart := uart, mallocs := mallocs } :=
  ⟨huart, h.status, h.api, h.retry, h.others, h.calls, h.writes, h.statuses, h.ordered⟩

lemma udpTest_timer : (udpTest clock s).timer =
    Function.update s.timer 0 ⟨1, 1, 2000, .udpDebugCallback, clock s.clockReads⟩ := by
  simp [udpTest, TimerHost.softTimerCreate, pcTimers]

lemma Obtained.udpTest (h : Obtained s) : Obtained (udpTest clock s) := by
  refine ⟨h.uart, h.status, h.api, ?_, ?_, h.calls, h.writes, h.statuses, h.ordered⟩
  · rw [udpTest_timer, Function.update_of_ne (by decide)]
    exact h.retry
  · intro i hi
    rw [udpTest_timer]
    by_cases hi0 : i = 0
    · rw [hi0, Function.update_self]
      simp
    · rw [Function.update_of_ne hi0]
      exact h.others i hi

lemma connect_uart (malloc : Nat → (n : Nat) → Malloc n) (h : s.uart.gsTxPtr = 0) :
    ∃ uart r, wlanApiConnect bufferedUart (malloc s.mallocs _) ssid2 passwd2 (UInt8.ofNat 3)
      (UInt8.ofNat 8) s.uart = some (uart, r) ∧ uart.gsTxPtr = 0 := by
  cases malloc s.mallocs (sizeofWifiConnect + 2) with
  | none => exact ⟨s.uart, -1, rfl, h⟩
  | some object =>
    obtain ⟨uart, hsend, hptr, -⟩ := wlanApiConnect_buffered object ssid2 passwd2 (UInt8.ofNat 3)
      (UInt8.ofNat 8) (by decide) (by decide) (by decide) (by decide) s.uart h
    exact ⟨uart, 0, hsend, hptr⟩

lemma Obtained.userLoop (h : Obtained s) (clock : Nat → UInt64)
    (malloc : Nat → (n : Nat) → Malloc n) (suppliedAddress : Byte) :
    ∃ s', userLoop clock malloc suppliedAddress s = some s' ∧ Obtained s' := by
  have hrank := h.status
  cases hstatus : s.wifiStatus with
  | notHwaddr => simp [hstatus, WifiStatus.rank] at hrank
  | free => simp [hstatus, WifiStatus.rank] at hrank
  | gotHwaddr =>
    obtain ⟨uart, r, hsend, hptr⟩ := connect_uart malloc h.uart
    have hs' := (h.sent hptr (s.mallocs + 1)).next .connected
      (by simp [hstatus, WifiStatus.rank])
    have hssid : strlen ssid2 = some 3 := rfl
    have hpasswd : strlen passwd2 = some 8 := rfl
    refine ⟨_, ?_, hs'⟩
    simp only [EthoSlip.userLoop, hstatus, hssid, hpasswd, hsend, Option.bind_eq_bind,
      Option.bind_some, Option.pure_def]
  | connected =>
    refine ⟨s.setWifiStatus .dhcpNotIp, by rw [EthoSlip.userLoop, hstatus], ?_⟩
    exact h.next _ (by rw [hstatus]; rfl)
  | dhcpNotIp =>
    refine ⟨_, by rw [EthoSlip.userLoop, hstatus], ?_⟩
    split_ifs
    · exact h.next _ (by rw [hstatus]; rfl)
    · exact h
  | dhcpGotIp =>
    refine ⟨(EthoSlip.udpTest clock s).setWifiStatus .runing, by rw [EthoSlip.userLoop, hstatus], ?_⟩
    apply h.udpTest.next .runing
    change _ = s.wifiStatus.rank + 1
    rw [hstatus]
    rfl
  | runing => exact ⟨s, by rw [EthoSlip.userLoop, hstatus], h⟩

lemma init_off (hwaddr : Vector Byte 6) (i : Fin maxTimer) :
    ((PcState.init hwaddr).timer i).on ≠ 1 := by
  change (0 : Byte) ≠ 1
  decide

lemma unobtained_init (hwaddr : Vector Byte 6) : Unobtained (.init hwaddr) := by
  refine ⟨rfl, .inl rfl, ?_, List.not_mem_nil, List.not_mem_nil⟩
  intro i _
  refine ⟨init_off hwaddr i, ?_⟩
  change TimerCb.softTimerDefault ≠ .getHwaddrTimeoutCallback
  decide

lemma userLoop_init (clock : Nat → UInt64) (malloc : Nat → (n : Nat) → Malloc n)
    (hwaddr : Vector Byte 6) (suppliedAddress : Byte) :
    ∃ s', userLoop clock malloc suppliedAddress (.init hwaddr) = some s' ∧ Waiting malloc s' := by
  have halloc : Allocated malloc (.init hwaddr) := fun k hk => absurd hk (Nat.not_lt_zero k)
  obtain ⟨s₁, hrequest, hs₁, hretry, -, hstatuses⟩ :=
    (unobtained_init hwaddr).request clock halloc (init_off hwaddr 1)
  refine ⟨s₁.setWifiStatus .free, ?_, ⟨?_, ?_, ?_, ?_, ?_⟩, rfl, hretry, ?_⟩
  · change (requestHwaddr clock malloc (.init hwaddr)).bind _ = _
    rw [hrequest]
    rfl
  · exact hs₁.uart
  · exact hs₁.api
  · exact hs₁.others
  · simpa [PcState.setWifiStatus] using hs₁.calls
  · simpa [PcState.setWifiStatus] using hs₁.writes
  · change wifiStatuses (s₁.history ++ [.wifiStatus .free]) = _
    rw [wifiStatuses_append_status, hstatuses]
    rfl

/-! ### The main loop -/

lemma loopTail_phase {hwaddr : Vector Byte 6} (h : Phase malloc hwaddr s) (suppliedAddress : Byte) :
    ∃ s', loopTail clock malloc suppliedAddress s = some s' ∧ Phase malloc hwaddr s' := by
  have hall : ∀ i ∈ List.finRange maxTimer, True := fun _ _ => trivial
  obtain rfl | h | h := h
  · have hproc : (pcTimers clock).softTimerProc (callTimer clock malloc) (.init hwaddr) =
        some (.init hwaddr) := by
      have hstep : ∀ s i, s = PcState.init hwaddr → True → ∃ s',
          (pcTimers clock).softTimerTurn (callTimer clock malloc) s i = some s' ∧
            s' = PcState.init hwaddr := by
        rintro s i rfl -
        exact ⟨_, TimerHost.softTimerTurn_off _ _ (init_off hwaddr i), rfl⟩
      obtain ⟨s', hrun, rfl⟩ := run_total hstep (List.finRange maxTimer) rfl hall
      exact hrun
    obtain ⟨s', hloop, hs'⟩ := userLoop_init clock malloc hwaddr suppliedAddress
    refine ⟨s', ?_, .inr (.inl hs')⟩
    rw [loopTail, hproc]
    exact hloop
  · have hstep : ∀ s i, Waiting malloc s → True → ∃ s',
        (pcTimers clock).softTimerTurn (callTimer clock malloc) s i = some s' ∧ Waiting malloc s' :=
      fun s i hs _ => hs.turn i
    obtain ⟨s', hproc, hs'⟩ := run_total hstep (List.finRange maxTimer) h hall
    refine ⟨s', ?_, .inr (.inl hs')⟩
    rw [loopTail, TimerHost.softTimerProc, hproc]
    change userLoop clock malloc suppliedAddress s' = some s'
    rw [userLoop, hs'.status]
  · have hstep : ∀ s i, Obtained s → True → ∃ s',
        (pcTimers clock).softTimerTurn (callTimer clock malloc) s i = some s' ∧ Obtained s' :=
      fun s i hs _ => hs.turn i
    obtain ⟨s₁, hproc, hs₁⟩ := run_total hstep (List.finRange maxTimer) h hall
    obtain ⟨s', hloop, hs'⟩ := hs₁.userLoop clock malloc suppliedAddress
    refine ⟨s', ?_, .inr (.inr hs')⟩
    rw [loopTail, TimerHost.softTimerProc, hproc]
    exact hloop

theorem mainIteration_phase {hwaddr : Vector Byte 6} (h : Phase malloc hwaddr s)
    (input : LoopInput) :
    ∃ s', mainIteration clock malloc s input = some s' ∧ Phase malloc hwaddr s' := by
  obtain ⟨payload, suppliedAddress⟩ := input
  cases payload with
  | none => exact loopTail_phase h suppliedAddress
  | some p =>
    change ∃ s', (rxProc clock p s).bind _ = some s' ∧ _
    obtain rfl | h | h := h
    · rw [rxProc_free p rfl]
      exact loopTail_phase (.inl rfl) suppliedAddress
    · obtain ⟨s₁, r, hrx, hcases⟩ := h.rxProc clock p
      rw [hrx]
      by_cases hr : r = 0
      · refine ⟨s₁, ?_, ?_⟩
        · simp [hr]
        · obtain rfl | ⟨-, hs₁⟩ := hcases
          · exact .inr (.inl h)
          · exact .inr (.inr hs₁)
      · obtain rfl : s₁ = s := hcases.resolve_right (fun hs₁ => hr hs₁.1)
        simp only [Option.bind_some, hr, if_false]
        exact loopTail_phase (.inr (.inl h)) suppliedAddress
    · rw [rxProc_free p h.api]
      exact loopTail_phase (.inr (.inr h)) suppliedAddress

/-- Every run of the main loop goes through and stays within the phases. -/
theorem mainLoop_phase (clock : Nat → UInt64) (malloc : Nat → (n : Nat) → Malloc n)
    (hwaddr : Vector Byte 6) (inputs : List LoopInput) :
    ∃ s, run (mainIteration clock malloc) (.init hwaddr) inputs = some s ∧
      Phase malloc hwaddr s := by
  have hinit : Phase malloc hwaddr (.init hwaddr) := .inl rfl
  have hall : ∀ input ∈ inputs, True := fun _ _ => trivial
  apply run_total _ inputs hinit hall
  intro s input hs _
  exact mainIteration_phase hs input

end Phases

/-- A history in which bring-up has run forward, up to the status that `s` has. -/
structure RunsForward (s : PcState) : Prop where
  calls : s.history.count .hwaddrCallback ≤ 1
  writes : s.history.count .hwaddrWritten ≤ 1
  statuses : wifiStatuses s.history <+: bringUpOrder
  current : (wifiStatuses s.history).getLast? = some s.wifiStatus
  ordered : s.history.Pairwise NoLateRequest

lemma getLast_bringUpOrder_take (status : WifiStatus) :
    (bringUpOrder.take (status.rank + 1)).getLast? = some status := by
  rw [bringUpOrder_take, List.getLast?_concat]

lemma Phase.runsForward {malloc : Nat → (n : Nat) → Malloc n} {hwaddr : Vector Byte 6} {s : PcState}
    (h : Phase malloc hwaddr s) : RunsForward s := by
  obtain rfl | h | h := h
  · refine ⟨Nat.zero_le 1, Nat.zero_le 1, ?_, rfl, List.Pairwise.nil⟩
    exact ⟨bringUpOrder.tail, rfl⟩
  · refine ⟨?_, ?_, ?_, ?_, ordered_of_not_mem h.got_not_mem⟩
    · rw [List.count_eq_zero.mpr h.calls]
      exact Nat.zero_le _
    · rw [List.count_eq_zero.mpr h.writes]
      exact Nat.zero_le _
    · rw [h.statuses]
      exact List.take_prefix 2 bringUpOrder
    · rw [h.statuses, h.status]
      rfl
  · refine ⟨h.calls.le, h.writes.le, ?_, ?_, h.ordered⟩
    · rw [h.statuses]
      exact List.take_prefix _ _
    · rw [h.statuses, getLast_bringUpOrder_take]

/-- Bring-up runs forward and only once, whatever is received, whatever the clock shows and
whichever `malloc` fails. -/
theorem bring_up_runs_forward (clock : Nat → UInt64) (malloc : Nat → (n : Nat) → Malloc n)
    (hwaddr : Vector Byte 6) (inputs : List LoopInput) :
    ∃ s, run (mainIteration clock malloc) (.init hwaddr) inputs = some s ∧ RunsForward s := by
  obtain ⟨s, hrun, hs⟩ := mainLoop_phase clock malloc hwaddr inputs
  exact ⟨s, hrun, hs.runsForward⟩

/-- A request will still be sent, or the retry timer runs. -/
def WillRequest (s : PcState) : Prop :=
  s.wifiStatus = .notHwaddr ∨
    (s.timer 1).on = 1 ∧ (s.timer 1).timerCb = .getHwaddrTimeoutCallback

lemma Phase.willRequest_iff {malloc : Nat → (n : Nat) → Malloc n} {hwaddr : Vector Byte 6}
    {s : PcState} (h : Phase malloc hwaddr s) (hcalls : .hwaddrCallback ∉ s.history) :
    WillRequest s ↔ Allocated malloc s := by
  obtain rfl | h | h := h
  · constructor
    · intro _ k hk
      exact absurd hk (Nat.not_lt_zero k)
    · intro _
      exact .inl rfl
  · have hfree : s.wifiStatus ≠ .notHwaddr := by
      rw [h.status]
      decide
    obtain ⟨harmed, halloc⟩ | ⟨hoff, halloc⟩ := h.retry
    · exact ⟨fun _ => halloc, fun _ => .inr ⟨harmed.on, harmed.timerCb⟩⟩
    · constructor
      · rintro (hstatus | ⟨hon, -⟩)
        · exact absurd hstatus hfree
        · exact absurd hon hoff
      · intro halloc'
        exact absurd halloc' halloc
  · have hzero := List.count_eq_zero.mpr hcalls
    rw [h.calls] at hzero
    exact absurd hzero one_ne_zero

/-- At the start of every iteration the retry is pending, unless the address has been obtained, if
and only if no `malloc` for a request has failed before. -/
theorem retry_pending_iff (clock : Nat → UInt64) (malloc : Nat → (n : Nat) → Malloc n)
    (hwaddr : Vector Byte 6) (inputs : List LoopInput) :
    ∃ s, run (mainIteration clock malloc) (.init hwaddr) inputs = some s ∧
      ((.hwaddrCallback ∉ s.history → WillRequest s) ↔
        (.hwaddrCallback ∉ s.history → Allocated malloc s)) := by
  obtain ⟨s, hrun, hs⟩ := mainLoop_phase clock malloc hwaddr inputs
  refine ⟨s, hrun, ?_⟩
  constructor
  · intro h hcalls
    exact (hs.willRequest_iff hcalls).mp (h hcalls)
  · intro h hcalls
    exact (hs.willRequest_iff hcalls).mpr (h hcalls)

/-- The first `malloc` fails, and nothing is left that would send a request. -/
theorem retry_lost :
    ¬∀ (clock : Nat → UInt64) (malloc : Nat → (n : Nat) → Malloc n) (hwaddr : Vector Byte 6)
      (inputs : List LoopInput) (s : PcState), (∀ i j, i ≤ j → clock i ≤ clock j) →
      run (mainIteration clock malloc) (.init hwaddr) inputs = some s →
      .hwaddrCallback ∉ s.history → WillRequest s := by
  intro h
  have hrun : (run (mainIteration (fun _ => 0) (fun _ _ => none)) (.init (Vector.replicate 6 0))
      [⟨none, 0⟩]).map (fun s => (s.wifiStatus, (s.timer 1).on, s.history)) =
        some (.free, 0, [.wifiStatus .free]) := by decide +kernel
  obtain ⟨s, hs, hfields⟩ := Option.map_eq_some_iff.mp hrun
  simp only [Prod.mk.injEq] at hfields
  obtain ⟨hstatus, hon, hhistory⟩ := hfields
  obtain hnot | ⟨hon', -⟩ := h (fun _ => 0) (fun _ _ => none) (Vector.replicate 6 0) [⟨none, 0⟩] s
    (fun _ _ _ => UInt64.le_refl 0) hs (by rw [hhistory]; decide)
  · rw [hstatus] at hnot
    exact absurd hnot (by decide)
  · rw [hon] at hon'
    exact absurd hon' (by decide)

end EthoSlip
