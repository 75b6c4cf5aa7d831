import EthoSlip.Lib.Run
import EthoSlip.Proofs.HandOverInvariant

/-!
# The hand-over loses and duplicates nothing
-/

namespace EthoSlip

open Lib

namespace HandOver

def queued (s : HandOver) : List Handle := s.queue.contents.map Handle.ofInt

/-- Where each `pbuf` is at any time, and what became of each frame. -/
structure Accounted (s : HandOver) : Prop where
  /-- Nothing was used or freed that was not allocated. -/
  noFault : s.fault = false
  alive : ∀ p ∈ s.slip.pointers ++ s.queued ++ s.main.pointers, (s.live p).isSome
  /-- Each `pbuf` ever allocated is in one place. -/
  places : (s.slip.pointers.filterMap s.live ++ s.queued.filterMap s.live
    ++ s.main.pointers.filterMap s.live ++ s.lwip ++ s.freed).Perm (List.range s.allocated)
  /-- What was taken out, and then what is in the queue, is what was put in, each once. -/
  fifo : s.put = s.got ++ s.queued.filterMap s.live
  ordered : s.put.Pairwise (· < ·)
  dropped : ∀ d ∈ s.drops, d = .noPbuf ∨ d = .queueFull 99
  /-- Each frame is in the queue, was dropped, or is on the way. -/
  counted : s.received = s.put.length + s.drops.length + s.slip.pending

variable {s s' : HandOver}

lemma Invariant.queued_eq {slip : SlipOut} {main : MainLoop} {r : Ring maxQSize (BitVec 32)}
    (h : s.Invariant slip main r) : s.queued = waiting r := by
  rw [queued, h.queue.contents_eq, waiting]

lemma Invariant.accounted {r : Ring maxQSize (BitVec 32)} (h : s.Invariant s.slip s.main r) :
    s.Accounted where
  noFault := h.noFault
  alive := by
    rw [h.queued_eq, List.append_assoc]
    exact h.balanced.alive
  places := by
    have hplaces := h.balanced.places
    rw [List.filterMap_append, List.filterMap_append, ← List.append_assoc] at hplaces
    rw [h.queued_eq]
    exact hplaces
  fifo := by
    rw [h.queued_eq]
    exact h.fifo
  ordered := (List.pairwise_append.mp h.ordered).1
  dropped := h.dropped
  counted := h.counted

lemma invariant_step (s : HandOver) (a : HandOverStep) (s' : HandOver)
    (h : ∃ r, s.Invariant s.slip s.main r) (hstep : handOverStep s a = some s') :
    ∃ r, s'.Invariant s'.slip s'.main r := by
  obtain ⟨r, h⟩ := h
  cases a with
  | slipReceive => exact ⟨r, h.slipReceive hstep⟩
  | slipAlloc result => exact ⟨r, h.slipAlloc hstep⟩
  | slipTake => exact ⟨r, h.slipTake hstep⟩
  | slipLock => exact ⟨r, h.slipLock hstep⟩
  | slipTestFull => exact ⟨r, h.slipTestFull hstep⟩
  | slipStore =>
    obtain ⟨e, h⟩ := h.slipStore hstep
    exact ⟨r.store e, h⟩
  | slipAdvance => exact ⟨r.advanceRear, h.slipAdvance hstep⟩
  | slipFree => exact ⟨r, h.slipFree hstep⟩
  | slipUnlock => exact ⟨r, h.slipUnlock hstep⟩
  | mainLock => exact ⟨r, h.mainLock hstep⟩
  | mainTestEmpty => exact ⟨r, h.mainTestEmpty hstep⟩
  | mainLoad => exact ⟨r, h.mainLoad hstep⟩
  | mainAdvance => exact ⟨r.advanceFront, h.mainAdvance hstep⟩
  | mainUnlock => exact ⟨r, h.mainUnlock hstep⟩
  | mainNull => exact ⟨r, h.mainNull hstep⟩
  | mainRxProc consumed => exact ⟨r, h.mainRxProc hstep⟩
  | mainInput ok => exact ⟨r, h.mainInput hstep⟩
  | mainFree => exact ⟨r, h.mainFree hstep⟩
  | lwipFree p => exact ⟨r, h.lwipFree hstep⟩

lemma init_invariant (base : Vector (BitVec 32) maxQSize) :
    (init base).Invariant .receiving .start (initRing base) where
  queue := qInit_represents base
  slipKnows := trivial
  mainKnows := trivial
  slipMutex := iff_of_false nofun nofun
  mainMutex := iff_of_false nofun nofun
  noFault := rfl
  address := nofun
  balanced := ⟨nofun, nofun, List.Perm.refl []⟩
  fifo := rfl
  ordered := List.Pairwise.nil
  bounded := nofun
  dropped := nofun
  counted := rfl

end HandOver

/-- Whatever the order in which the threads take their steps, each `pbuf` is in one place and comes
out of the queue in its turn, and a frame is dropped only when there is no `pbuf` or no room. -/
theorem hand_over_accounted (base : Vector (BitVec 32) maxQSize) (steps : List HandOverStep)
    (s : HandOver) (hrun : run handOverStep (.init base) steps = some s) : s.Accounted := by
  have hinit : ∃ r, (HandOver.init base).Invariant .receiving .start r :=
    ⟨initRing base, HandOver.init_invariant base⟩
  obtain ⟨r, h⟩ := run_invariant HandOver.invariant_step hinit hrun
  exact h.accounted

/-- Two frames are received, one of which is dropped; the main loop passes the other one to lwIP,
which frees it. -/
theorem hand_over_accounted_run :
    ∃ s, run handOverStep (.init (Vector.replicate maxQSize 0))
      [.slipReceive, .slipAlloc (some 0x1000), .slipTake, .slipLock, .slipTestFull, .slipStore,
        .slipAdvance, .slipUnlock, .mainLock, .slipReceive, .slipAlloc none, .mainTestEmpty,
        .mainLoad, .mainAdvance, .mainUnlock, .mainRxProc false, .mainInput true,
        .lwipFree 0x1000] = some s ∧ (s.got, s.drops) = ([0], [.noPbuf]) ∧ s.Accounted := by
  have hlogs : (run handOverStep (.init (Vector.replicate maxQSize 0))
      [.slipReceive, .slipAlloc (some 0x1000), .slipTake, .slipLock, .slipTestFull, .slipStore,
        .slipAdvance, .slipUnlock, .mainLock, .slipReceive, .slipAlloc none, .mainTestEmpty,
        .mainLoad, .mainAdvance, .mainUnlock, .mainRxProc false, .mainInput true,
        .lwipFree 0x1000]).map (fun s => (s.got, s.drops)) = some ([0], [.noPbuf]) := by
    decide +kernel
  obtain ⟨s, hrun, hs⟩ := Option.map_eq_some_iff.mp hlogs
  exact ⟨s, hrun, hs, hand_over_accounted _ _ s hrun⟩

/-- What the slip thread does under the mutex is `queue_try_put`. -/
theorem slip_steps_put {s : HandOver} {p : Handle} {queue : SqQueue} (hslip : s.slip = .locked p)
    (hput : queueTryPut s.queue p = some (queue, 1)) :
    run handOverStep s [.slipTestFull, .slipStore, .slipAdvance] =
      some { s with
        slip := .unlocking, queue := queue, put := s.put ++ (s.live p).toList } := by
  by_cases hfull : s.queue.full = true
  · rw [queueTryPut, qPut, if_pos hfull] at hput
    cases hput
  · rw [queueTryPut, qPut, if_neg hfull, Option.map_map] at hput
    obtain ⟨stored, hstored, hqueue⟩ := Option.map_eq_some_iff.mp hput
    cases hqueue
    simp only [run_cons, run_nil, handOverStep, hslip, if_neg hfull, hstored, Option.bind_some]

/-- A full queue stays as it is. -/
theorem slip_steps_refuse {s : HandOver} {p : Handle} {queue : SqQueue} (hslip : s.slip = .locked p)
    (hput : queueTryPut s.queue p = some (queue, 0)) :
    queue = s.queue ∧ run handOverStep s [.slipTestFull] =
      some { s with
        slip := .refused p
        drops := s.drops ++ [.queueFull (s.put.length - s.got.length)] } := by
  by_cases hfull : s.queue.full = true
  · rw [queueTryPut, qPut, if_pos hfull] at hput
    cases hput
    simp only [run_cons, run_nil, handOverStep, hslip, if_pos hfull, Option.bind_some, true_and]
  · rw [queueTryPut, qPut, if_neg hfull, Option.map_map] at hput
    obtain ⟨stored, hstored, hqueue⟩ := Option.map_eq_some_iff.mp hput
    cases hqueue

/-- What the main loop does under the mutex is `queue_try_get`. -/
theorem main_steps_get {s : HandOver} {p : Handle} {queue : SqQueue} {e : BitVec 32}
    (hmain : s.main = .locked) (hempty : s.queue.empty = false)
    (hget : queueTryGet s.queue e = some (queue, p)) :
    run handOverStep s [.mainTestEmpty, .mainLoad, .mainAdvance] =
      some { s with
        main := .unlocking p, queue := queue, got := s.got ++ (s.live p).toList } := by
  have hnonempty : ¬s.queue.empty = true := by simp [hempty]
  rw [queueTryGet, qPoll, if_neg hnonempty, Option.map_map] at hget
  obtain ⟨loaded, hloaded, hqueue⟩ := Option.map_eq_some_iff.mp hget
  cases hqueue
  simp only [run_cons, run_nil, handOverStep, hmain, if_neg hnonempty, hloaded, Option.bind_some]
  rfl

theorem main_steps_empty {s : HandOver} {p : Handle} {queue : SqQueue} {e : BitVec 32}
    (hmain : s.main = .locked) (hempty : s.queue.empty = true)
    (hget : queueTryGet s.queue e = some (queue, p)) :
    run handOverStep s [.mainTestEmpty] = some { s with main := .unlocking p, queue := queue } := by
  rw [queueTryGet, qPoll, if_pos hempty] at hget
  cases hget
  simp only [run_cons, run_nil, handOverStep, hmain, if_pos hempty, Option.bind_some]
  rfl

end EthoSlip
