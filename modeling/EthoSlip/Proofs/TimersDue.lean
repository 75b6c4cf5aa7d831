import EthoSlip.Proofs.TimerHistory

/-!
# Timers fire when they are due

A slot is armed exactly when its last create had `on = 1` and neither a delete nor, for a one-shot
timer, a firing has come since. `count` lies at or behind the create and all firings since, except
while the callback of the slot itself runs: `soft_timer_proc` writes it when the callback returns.
-/

namespace EthoSlip
open Lib

variable {κ : Type} {clock : Nat → UInt64} {script : Nat → κ → List (TimerOp κ)}

def TimerEvent.slot : TimerEvent κ → Fin maxTimer
  | .created i _ => i
  | .deleted i => i
  | .fired i _ => i

/-- What a history says of a slot since its last create. -/
structure SlotAccount (κ : Type) where
  create : Option (SoftTimer κ)
  deleted : Bool
  firings : List UInt64

def SlotAccount.next (a : SlotAccount κ) : TimerEvent κ → SlotAccount κ
  | .created _ slot => ⟨some slot, false, []⟩
  | .deleted _ => { a with deleted := true }
  | .fired _ now => { a with firings := a.firings ++ [now] }

def account (i : Fin maxTimer) (events : List (TimerEvent κ)) : SlotAccount κ :=
  (events.filter (fun e => e.slot = i)).foldl SlotAccount.next ⟨none, false, []⟩

lemma account_concat_self (events : List (TimerEvent κ)) {e : TimerEvent κ} {i : Fin maxTimer}
    (h : e.slot = i) : account i (events ++ [e]) = (account i events).next e := by
  have hfilter : [e].filter (fun e => e.slot = i) = [e] :=
    List.filter_cons_of_pos (decide_eq_true h)
  rw [account, List.filter_append, List.foldl_append, hfilter]
  rfl

lemma account_concat_other (events : List (TimerEvent κ)) {e : TimerEvent κ} {i : Fin maxTimer}
    (h : e.slot ≠ i) : account i (events ++ [e]) = account i events := by
  have hfilter : [e].filter (fun e => e.slot = i) = [] :=
    List.filter_cons_of_neg (fun hi => h (of_decide_eq_true hi))
  rw [account, List.filter_append, List.foldl_append, hfilter]
  rfl

/-- The last create of the slot, with the events behind it. -/
def LastCreate (i : Fin maxTimer) (events : List (TimerEvent κ)) (c : SoftTimer κ)
    (since : List (TimerEvent κ)) : Prop :=
  ∃ earlier, events = earlier ++ .created i c :: since ∧ ∀ c', .created i c' ∉ since

lemma LastCreate.concat {i : Fin maxTimer} {events since : List (TimerEvent κ)} {c : SoftTimer κ}
    (h : LastCreate i events c since) {e : TimerEvent κ} (he : ∀ c', e ≠ .created i c') :
    LastCreate i (events ++ [e]) c (since ++ [e]) := by
  obtain ⟨earlier, rfl, hnone⟩ := h
  refine ⟨earlier, by rw [List.append_assoc, List.cons_append], ?_⟩
  intro c' hc'
  rcases List.mem_append.mp hc' with hmem | hmem
  · exact hnone c' hmem
  · exact he c' (List.mem_singleton.mp hmem).symm

lemma account_untouched {i : Fin maxTimer} {events since : List (TimerEvent κ)} {c : SoftTimer κ}
    (h : LastCreate i events c since) (hsince : ∀ e ∈ since, e.slot ≠ i) :
    account i events = ⟨some c, false, []⟩ := by
  obtain ⟨earlier, rfl, -⟩ := h
  have hnone : since.filter (fun e => e.slot = i) = [] := by
    rw [List.filter_eq_nil_iff]
    intro e he hslot
    exact hsince e he (of_decide_eq_true hslot)
  have hcreated : (TimerEvent.created i c :: since).filter (fun e => e.slot = i) =
      [.created i c] := by
    rw [List.filter_cons, if_pos (by simp [TimerEvent.slot]), hnone]
  rw [account, List.filter_append, List.foldl_append, hcreated]
  rfl

/-- The account misses none of these events of slot `i`. -/
structure SlotAccount.Covers (a : SlotAccount κ) (i : Fin maxTimer) (since : List (TimerEvent κ)) :
    Prop where
  deleted : a.deleted = false → .deleted i ∉ since
  firings : ∀ now, .fired i now ∈ since → now ∈ a.firings

namespace SlotAccount.Covers

variable {a : SlotAccount κ} {i : Fin maxTimer} {since : List (TimerEvent κ)}

lemma nil (a : SlotAccount κ) (i : Fin maxTimer) : a.Covers i [] where
  deleted := fun _ => List.not_mem_nil
  firings := fun _ hnow => absurd hnow List.not_mem_nil

lemma concat_deleted (h : a.Covers i since) :
    SlotAccount.Covers { a with deleted := true } i (since ++ [.deleted i]) where
  deleted := by
    intro hkept
    cases hkept
  firings := by
    intro now hnow
    exact h.firings now (by simpa using hnow)

lemma concat_fired (h : a.Covers i since) (now : UInt64) :
    SlotAccount.Covers { a with firings := a.firings ++ [now] } i (since ++ [.fired i now]) where
  deleted := by
    intro hkept
    simpa using h.deleted hkept
  firings := by
    intro t ht
    rcases List.mem_append.mp ht with hmem | hmem
    · exact List.mem_append_left _ (h.firings t hmem)
    · cases List.mem_singleton.mp hmem
      exact List.mem_append_right _ (List.mem_singleton_self now)

lemma concat_other (h : a.Covers i since) {e : TimerEvent κ} (he : e.slot ≠ i) :
    a.Covers i (since ++ [e]) where
  deleted := by
    intro hkept hmem
    rcases List.mem_append.mp hmem with hmem | hmem
    · exact h.deleted hkept hmem
    · exact he (List.mem_singleton.mp hmem ▸ rfl)
  firings := by
    intro now hmem
    rcases List.mem_append.mp hmem with hmem | hmem
    · exact h.firings now hmem
    · exact absurd (List.mem_singleton.mp hmem ▸ rfl) he

end SlotAccount.Covers

/-- The account stands for the events since the last create. -/
lemma exists_lastCreate {i : Fin maxTimer} {events : List (TimerEvent κ)} {c : SoftTimer κ}
    (h : (account i events).create = some c) :
    ∃ since, LastCreate i events c since ∧ (account i events).Covers i since := by
  induction events using List.reverseRecOn with
  | nil => cases h
  | append_singleton events e ih =>
    by_cases hslot : e.slot = i
    · rw [account_concat_self events hslot] at h ⊢
      cases e with
      | created j slot =>
        cases hslot
        cases h
        exact ⟨[], ⟨events, rfl, fun c' => List.not_mem_nil⟩, .nil _ _⟩
      | deleted j =>
        cases hslot
        obtain ⟨since, hlast, hcovers⟩ := ih h
        exact ⟨_, hlast.concat (fun _ => by simp), hcovers.concat_deleted⟩
      | fired j now =>
        cases hslot
        obtain ⟨since, hlast, hcovers⟩ := ih h
        exact ⟨_, hlast.concat (fun _ => by simp), hcovers.concat_fired now⟩
    · rw [account_concat_other events hslot] at h ⊢
      obtain ⟨since, hlast, hcovers⟩ := ih h
      have hnew : ∀ c', e ≠ .created i c' := by
        rintro c' rfl
        exact hslot rfl
      exact ⟨_, hlast.concat hnew, hcovers.concat_other hslot⟩

/-- The create `c` still arms the slot. -/
structure SlotAccount.ArmedBy (a : SlotAccount κ) (c : SoftTimer κ) : Prop where
  create : a.create = some c
  on : c.on = 1
  kept : a.deleted = false
  once : c.isCircle = 0 → a.firings = []

/-- The slot may fire at `now`. -/
def SlotAccount.Due (a : SlotAccount κ) (now : UInt64) : Prop :=
  ∃ c, a.ArmedBy c ∧ c.count.toNat + c.timeout.toNat ≤ now.toNat ∧
    ∀ t ∈ a.firings, t.toNat + c.timeout.toNat ≤ now.toNat

/-- What holds of a slot at the clock reading `tick`; `running` is that its callback is running. -/
structure SlotGood (tick : UInt64) (running : Prop) (slot : SoftTimer κ) (a : SlotAccount κ) :
    Prop where
  armed : slot.on = 1 ↔ ∃ c, a.ArmedBy c
  fields : ∀ c, a.create = some c → slot.isCircle = c.isCircle ∧ slot.timeout = c.timeout ∧
    slot.timerCb = c.timerCb ∧ c.count ≤ slot.count
  count_le : slot.count ≤ tick
  firings_le : ∀ t ∈ a.firings, t ≤ tick
  firings_count : ¬running → ∀ t ∈ a.firings, t ≤ slot.count

section Slot

variable {tick tick' now : UInt64} {running running' : Prop} {slot : SoftTimer κ}
  {a : SlotAccount κ}

lemma SlotGood.mono (h : SlotGood tick running slot a) (hle : tick ≤ tick') :
    SlotGood tick' running slot a where
  armed := h.armed
  fields := h.fields
  count_le := UInt64.le_trans h.count_le hle
  firings_le := fun t ht => UInt64.le_trans (h.firings_le t ht) hle
  firings_count := h.firings_count

lemma slotGood_created (h : slot.count ≤ tick) :
    SlotGood tick running slot ⟨some slot, false, []⟩ where
  armed := by
    constructor
    · intro hon
      exact ⟨slot, rfl, hon, rfl, fun _ => rfl⟩
    · rintro ⟨c, hc⟩
      cases hc.create
      exact hc.on
  fields := by
    intro c hc
    cases hc
    exact ⟨rfl, rfl, rfl, UInt64.le_refl _⟩
  count_le := h
  firings_le := fun t ht => absurd ht List.not_mem_nil
  firings_count := fun _ t ht => absurd ht List.not_mem_nil

lemma SlotGood.deleted (h : SlotGood tick running slot a) :
    SlotGood tick running { slot with on := 0 } { a with deleted := true } where
  armed := by
    constructor
    · intro hon
      exact absurd hon (show (0 : Byte) ≠ 1 by decide)
    · rintro ⟨c, hc⟩
      cases hc.kept
  fields := h.fields
  count_le := h.count_le
  firings_le := h.firings_le
  firings_count := h.firings_count

lemma SlotGood.of_idle (h : SlotGood tick running slot a) (hidle : ¬running) :
    SlotGood tick running' slot a where
  armed := h.armed
  fields := h.fields
  count_le := h.count_le
  firings_le := h.firings_le
  firings_count := fun _ => h.firings_count hidle

/-- A slot that has fired stays armed when it is circular. -/
lemma SlotGood.called (h : SlotGood tick running slot a) (hon : slot.on = 1) (hrunning : running') :
    SlotGood tick running' slot.called { a with firings := a.firings ++ [tick] } := by
  obtain ⟨c, hc⟩ := h.armed.mp hon
  have hfields := h.fields c hc.create
  have hcount : slot.called.count = slot.count := by
    unfold SoftTimer.called
    split_ifs <;> rfl
  have hsame : slot.called.isCircle = slot.isCircle ∧ slot.called.timeout = slot.timeout ∧
      slot.called.timerCb = slot.timerCb := by
    unfold SoftTimer.called
    split_ifs <;> exact ⟨rfl, rfl, rfl⟩
  have hfired : a.firings ++ [tick] ≠ [] := by simp
  constructor
  · by_cases honce : slot.isCircle = 0
    · have hoff : slot.called.on = 0 := by rw [SoftTimer.called, if_pos honce]
      rw [hoff]
      constructor
      · intro h01
        exact absurd h01 (by decide)
      · rintro ⟨c', hc'⟩
        have hcc : c' = c := Option.some.inj (hc'.create.symm.trans hc.create)
        exact absurd (hc'.once (by rw [hcc, ← hfields.1, honce])) hfired
    · have hstays : slot.called.on = 1 := by rw [SoftTimer.called, if_neg honce, hon]
      refine iff_of_true hstays ⟨c, hc.create, hc.on, hc.kept, fun hzero => ?_⟩
      exact absurd (hfields.1.trans hzero) honce
  · intro c' hc'
    rw [hsame.1, hsame.2.1, hsame.2.2, hcount]
    exact h.fields c' hc'
  · rw [hcount]
    exact h.count_le
  · intro t ht
    rcases List.mem_append.mp ht with hmem | hmem
    · exact h.firings_le t hmem
    · rw [List.mem_singleton.mp hmem]
      exact UInt64.le_refl _
  · intro hidle
    exact absurd hrunning hidle

lemma SlotGood.counted (h : SlotGood tick running slot a) :
    SlotGood tick running' { slot with count := tick } a where
  armed := h.armed
  fields := fun c hc =>
    have hfields := h.fields c hc
    ⟨hfields.1, hfields.2.1, hfields.2.2.1, UInt64.le_trans hfields.2.2.2 h.count_le⟩
  count_le := UInt64.le_refl _
  firings_le := h.firings_le
  firings_count := fun _ => h.firings_le

/-- The difference that is compared with `timeout` does not wrap. -/
lemma SlotGood.due (h : SlotGood tick running slot a) (hidle : ¬running) (hon : slot.on = 1)
    (hnow : tick ≤ now) (hdue : slot.timeout.toUInt64 ≤ now - slot.count) : a.Due now := by
  obtain ⟨c, hc⟩ := h.armed.mp hon
  obtain ⟨-, htimeout, -, hcreate⟩ := h.fields c hc.create
  have hcount : slot.count ≤ now := UInt64.le_trans h.count_le hnow
  have helapsed : slot.count.toNat + c.timeout.toNat ≤ now.toNat := by
    rw [UInt64.le_iff_toNat_le, UInt64.toNat_sub_of_le _ _ hcount, UInt32.toNat_toUInt64,
      htimeout] at hdue
    rw [UInt64.le_iff_toNat_le] at hcount
    omega
  refine ⟨c, hc, ?_, ?_⟩
  · rw [UInt64.le_iff_toNat_le] at hcreate
    omega
  · intro t ht
    have hfiring := UInt64.le_iff_toNat_le.mp (h.firings_count hidle t ht)
    omega

end Slot

/-- Firings come when they are due by what stands before them in the history. -/
def Admitted (before : List (TimerEvent κ)) (e : TimerEvent κ) : Prop :=
  ∀ i now, e = .fired i now → (account i before).Due now

/-- `running` is the slot whose callback is running, if there is one. -/
structure TimerInvariant (clock : Nat → UInt64) (running : Option (Fin maxTimer))
    (s : TimerHistory κ) : Prop where
  tick_le : s.tick ≤ clock s.clockReads
  slots : ∀ i, SlotGood s.tick (running = some i) (s.timer i) (account i s.events)
  admitted : EveryEntry Admitted s.events

lemma timerInvariant_init (softTimerDefault : κ) :
    TimerInvariant clock none (TimerHistory.init softTimerDefault) where
  tick_le := UInt64.zero_le
  slots := by
    intro i
    refine ⟨?_, ?_, UInt64.le_refl _, ?_, ?_⟩
    · constructor
      · intro hon
        exact absurd hon (show (0 : Byte) ≠ 1 by decide)
      · rintro ⟨c, hc⟩
        cases hc.create
    · intro c hc
      cases hc
    · exact fun t ht => absurd ht List.not_mem_nil
    · exact fun _ t ht => absurd ht List.not_mem_nil
  admitted := everyEntry_nil

section Invariant

variable {running running' : Option (Fin maxTimer)} {s : TimerHistory κ}

lemma TimerInvariant.readClock (hclock : ∀ n, clock n ≤ clock (n + 1))
    (h : TimerInvariant clock running s) : TimerInvariant clock running (s.readClock clock) where
  tick_le := hclock s.clockReads
  slots := fun i => (h.slots i).mono h.tick_le
  admitted := h.admitted

/-- An event of slot `i` that changes no other slot. -/
lemma TimerInvariant.record (h : TimerInvariant clock running s) (e : TimerEvent κ)
    {i : Fin maxTimer} (hi : e.slot = i) {slot : SoftTimer κ}
    (hslot : SlotGood s.tick (running' = some i) slot ((account i s.events).next e))
    (hrunning : ∀ j ≠ i, running' = some j ↔ running = some j) (he : Admitted s.events e)
    (calls : Nat) :
    TimerInvariant clock running'
      { s with
        timer := Function.update s.timer i slot
        calls := calls
        events := s.events ++ [e] } where
  tick_le := h.tick_le
  slots := by
    intro j
    by_cases hj : j = i
    · subst hj
      simp only [Function.update_self, account_concat_self _ hi]
      exact hslot
    · have hother : e.slot ≠ j := fun hej => hj (hej.symm.trans hi)
      simp only [Function.update_of_ne hj, account_concat_other _ hother, hrunning j hj]
      exact h.slots j
  admitted := everyEntry_concat h.admitted he

/-- Any operation of the program or of a callback. -/
lemma TimerInvariant.historyOp (hclock : ∀ n, clock n ≤ clock (n + 1))
    (h : TimerInvariant clock running s) (op : TimerOp κ) :
    TimerInvariant clock running (historyOp clock s op) := by
  cases op with
  | create id on isCircle timerCb timeout =>
    rw [historyOp_create]
    apply (h.readClock hclock).record (.created id _) rfl
    · exact slotGood_created (UInt64.le_refl _)
    · exact fun _ _ => Iff.rfl
    · intro i now he
      cases he
  | delete id =>
    rw [historyOp_delete]
    split_ifs
    · exact h
    · apply h.record (.deleted id) rfl
      · exact (h.slots id).deleted
      · exact fun _ _ => Iff.rfl
      · intro i now he
        cases he

lemma TimerInvariant.foldl_historyOp (hclock : ∀ n, clock n ≤ clock (n + 1))
    (ops : List (TimerOp κ)) (h : TimerInvariant clock running s) :
    TimerInvariant clock running (ops.foldl (EthoSlip.historyOp clock) s) := by
  induction ops generalizing s with
  | nil => exact h
  | cons op ops ih => exact ih (h.historyOp hclock op)

/-- The callback of a due slot is called. -/
lemma TimerInvariant.fire (h : TimerInvariant clock none s) {i : Fin maxTimer}
    (hon : (s.timer i).on = 1) (hdue : (account i s.events).Due s.tick) :
    TimerInvariant clock (some i) (s.fire i) := by
  apply h.record (.fired i s.tick) rfl
  · exact (h.slots i).called hon rfl
  · intro j hj
    exact iff_of_false (fun heq => hj (Option.some.inj heq).symm) (Option.some_ne_none j).symm
  · intro j now he
    cases he
    exact hdue

/-- The callback has returned. -/
lemma TimerInvariant.count (hclock : ∀ n, clock n ≤ clock (n + 1)) {i : Fin maxTimer}
    (h : TimerInvariant clock (some i) s) : TimerInvariant clock none (s.count clock i) where
  tick_le := hclock s.clockReads
  slots := by
    intro j
    have hread := (h.readClock hclock).slots j
    by_cases hj : j = i
    · subst hj
      simp only [TimerHistory.count, Function.update_self]
      exact hread.counted
    · simp only [TimerHistory.count, Function.update_of_ne hj]
      exact hread.of_idle (fun heq => hj (Option.some.inj heq).symm)
  admitted := h.admitted

end Invariant

lemma historyTurn_good (hclock : ∀ n, clock n ≤ clock (n + 1)) (s : TimerHistory κ)
    (i : Fin maxTimer) (h : TimerInvariant clock none s) :
    ∃ s', (historyHost clock).softTimerTurn (historyCallback clock script i) s i = some s' ∧
      TimerInvariant clock none s' := by
  rw [historyHost_turn]
  split_ifs with hon hdue
  · refine ⟨_, rfl, ?_⟩
    apply TimerInvariant.count hclock
    apply TimerInvariant.foldl_historyOp hclock
    apply (h.readClock hclock).fire hon
    exact (h.slots i).due (Option.some_ne_none i).symm hon h.tick_le hdue
  · exact ⟨_, rfl, h.readClock hclock⟩
  · exact ⟨_, rfl, h⟩

lemma historyStep_good (script : Nat → κ → List (TimerOp κ))
    (hclock : ∀ n, clock n ≤ clock (n + 1)) (s : TimerHistory κ) (step : TimerStep κ)
    (h : TimerInvariant clock none s) :
    ∃ s', historyStep clock script s step = some s' ∧ TimerInvariant clock none s' := by
  cases step with
  | op op => exact ⟨_, rfl, h.historyOp hclock op⟩
  | softTimerProc =>
    exact run_total (A := fun _ => True) (fun s i hs _ => historyTurn_good hclock s i hs) _ h
      (fun _ _ => trivial)

/-- In every history the timers fire only when they are due, and a create with `on = 1` that nothing
has followed leaves its slot armed, also when it was made by the callback of the slot. -/
theorem timers_fire_when_due (hclock : ∀ n, clock n ≤ clock (n + 1)) (softTimerDefault : κ)
    (steps : List (TimerStep κ)) :
    ∃ s, run (historyStep clock script) (.init softTimerDefault) steps = some s ∧
      run (runStep clock script) ⟨softTimerInit softTimerDefault, 0, 0⟩ steps =
        some s.toTimerRun ∧
      (∀ before i now after, s.events = before ++ .fired i now :: after →
        ∃ c since, LastCreate i before c since ∧ c.on = 1 ∧ .deleted i ∉ since ∧
          c.count.toNat + c.timeout.toNat ≤ now.toNat ∧
          (∀ t, .fired i t ∈ since → t.toNat + c.timeout.toNat ≤ now.toNat) ∧
          (c.isCircle = 0 → ∀ t, .fired i t ∉ since)) ∧
      ∀ i c since, LastCreate i s.events c since → c.on = 1 → (∀ e ∈ since, e.slot ≠ i) →
        (s.timer i).on = 1 ∧ (s.timer i).isCircle = c.isCircle ∧
          (s.timer i).timeout = c.timeout ∧ (s.timer i).timerCb = c.timerCb := by
  obtain ⟨s, hrun, hgood⟩ := run_total (A := fun _ => True)
    (fun s step hs _ => historyStep_good script hclock s step hs) steps
    (timerInvariant_init softTimerDefault) (fun _ _ => trivial)
  refine ⟨s, hrun, ?_, ?_, ?_⟩
  · have hmap := run_map (historyStep_run clock script) (.init softTimerDefault) steps
    rw [hrun, Option.map_some] at hmap
    exact hmap.symm
  · intro before i now after hevents
    obtain ⟨c, hc, hcreate, hfirings⟩ := hgood.admitted before _ after hevents i now rfl
    obtain ⟨since, hlast, hcovers⟩ := exists_lastCreate hc.create
    refine ⟨c, since, hlast, hc.on, hcovers.deleted hc.kept, hcreate, ?_, ?_⟩
    · intro t ht
      exact hfirings t (hcovers.firings t ht)
    · intro honce t ht
      have hmem := hcovers.firings t ht
      rw [hc.once honce] at hmem
      exact List.not_mem_nil hmem
  · intro i c since hlast hon huntouched
    have haccount := account_untouched hlast huntouched
    have hslot := hgood.slots i
    rw [haccount] at hslot
    have hfields := hslot.fields c rfl
    exact ⟨hslot.armed.mpr ⟨c, rfl, hon, rfl, fun _ => rfl⟩, hfields.1, hfields.2.1, hfields.2.2.1⟩

/-- A one-shot timer whose callback arms it again, as the retry timer of `user_main.c` does. -/
def retryScript (_ : Nat) (_ : Unit) : List (TimerOp Unit) := [.create 1 1 0 () 2000]

def retryClock (n : Nat) : UInt64 := if n = 0 then 0 else 2000

/-- The timer is armed at 0 and fires at 2000, its whole `timeout` later and once for its create; its
callback has armed it again. -/
theorem timers_fire_when_due_witness :
    ∃ s, run (historyStep retryClock retryScript) (.init ())
        [.op (.create 1 1 0 () 2000), .softTimerProc] = some s ∧
      run (runStep retryClock retryScript) ⟨softTimerInit (), 0, 0⟩
        [.op (.create 1 1 0 () 2000), .softTimerProc] = some s.toTimerRun ∧
      s.events = [.created 1 ⟨0, 1, 2000, (), 0⟩, .fired 1 2000, .created 1 ⟨0, 1, 2000, (), 2000⟩] ∧
      (∃ c since, LastCreate 1 [.created 1 ⟨0, 1, 2000, (), 0⟩] c since ∧ c.on = 1 ∧
        .deleted 1 ∉ since ∧ c.count.toNat + c.timeout.toNat ≤ 2000 ∧
        (∀ t, .fired 1 t ∈ since → t.toNat + c.timeout.toNat ≤ 2000) ∧
        (c.isCircle = 0 → ∀ t, .fired 1 t ∉ since)) ∧
      (s.timer 1).on = 1 ∧ (s.timer 1).isCircle = 0 ∧ (s.timer 1).timeout = 2000 := by
  have hclock : ∀ n, retryClock n ≤ retryClock (n + 1) := by
    intro n
    cases n with
    | zero => decide
    | succ n => exact UInt64.le_refl 2000
  obtain ⟨s, hrun, hprogram, hfired, harmed⟩ :=
    @timers_fire_when_due Unit retryClock retryScript hclock ()
      [.op (.create 1 1 0 () 2000), .softTimerProc]
  have hlog : (run (historyStep retryClock retryScript) (.init ())
      [.op (.create 1 1 0 () 2000), .softTimerProc]).map TimerHistory.events =
      some [.created 1 ⟨0, 1, 2000, (), 0⟩, .fired 1 2000, .created 1 ⟨0, 1, 2000, (), 2000⟩] := by
    decide
  rw [hrun, Option.map_some, Option.some.injEq] at hlog
  have hlast := harmed 1 ⟨0, 1, 2000, (), 2000⟩ []
    ⟨[.created 1 ⟨0, 1, 2000, (), 0⟩, .fired 1 2000], hlog, fun _ => List.not_mem_nil⟩ rfl
    (fun _ he => absurd he List.not_mem_nil)
  refine ⟨s, hrun, hprogram, hlog, ?_, hlast.1, hlast.2.1, hlast.2.2.1⟩
  exact hfired [.created 1 ⟨0, 1, 2000, (), 0⟩] 1 2000 _ hlog

end EthoSlip
