import EthoSlip.Lib.Ownership
import EthoSlip.Model.HandOver
import EthoSlip.Proofs.ReceiveQueue

/-!
# What the hand-over keeps

The invariant ties four things together: what each thread knows about the queue inside its critical
section, who holds the mutex, where each `pbuf` is, and what the logs say.
-/

namespace EthoSlip

open Lib

/-- The `pbuf` in the hands of `slip_out_task_proc`. -/
def SlipOut.pointers : SlipOut → List Handle
  | .receiving | .received | .unlocking => []
  | .allocated p | .taken p | .locked p | .storing p | .advancing p | .refused p => [p]

def SlipOut.locks : SlipOut → Bool
  | .receiving | .received | .allocated _ | .taken _ => false
  | .locked _ | .storing _ | .advancing _ | .refused _ | .unlocking => true

/-- The frames on the way between their reception and the queue. -/
def SlipOut.pending : SlipOut → Nat
  | .receiving | .refused _ | .unlocking => 0
  | .received | .allocated _ | .taken _ | .locked _ | .storing _ | .advancing _ => 1

/-- The `pbuf` in the hands of the main loop. -/
def MainLoop.pointers : MainLoop → List Handle
  | .unlocking p | .got p => if p = 0 then [] else [p]
  | .rejected p | .releasing p => [p]
  | .start | .locked | .loading | .advancing _ => []

def MainLoop.locks : MainLoop → Bool
  | .start | .got _ | .rejected _ | .releasing _ => false
  | .locked | .loading | .advancing _ | .unlocking _ => true

def SlipOut.Knows (r : Ring maxQSize (BitVec 32)) : SlipOut → Prop
  | .storing _ => wrap maxQSize (r.rear + 1) ≠ r.front
  | .advancing p => wrap maxQSize (r.rear + 1) ≠ r.front ∧ r.slot r.rear = p.toInt
  | _ => True

def MainLoop.Knows (r : Ring maxQSize (BitVec 32)) : MainLoop → Prop
  | .loading => r.front ≠ r.rear
  | .advancing e => r.front ≠ r.rear ∧ r.slot r.front = e
  | _ => True

lemma SlipOut.knows_of_not_locks {slip : SlipOut} (r : Ring maxQSize (BitVec 32))
    (h : ¬slip.locks = true) : slip.Knows r := by
  cases slip with
  | storing p => exact absurd rfl h
  | advancing p => exact absurd rfl h
  | _ => trivial

lemma MainLoop.knows_of_not_locks {main : MainLoop} (r : Ring maxQSize (BitVec 32))
    (h : ¬main.locks = true) : main.Knows r := by
  cases main with
  | loading => exact absurd rfl h
  | advancing e => exact absurd rfl h
  | _ => trivial

def waiting (r : Ring maxQSize (BitVec 32)) : List Handle := r.contents.map Handle.ofInt

lemma waiting_store (r : Ring maxQSize (BitVec 32)) (e : BitVec 32) :
    waiting (r.store e) = waiting r := by
  rw [waiting, waiting, r.contents_store]

lemma waiting_advanceRear {r : Ring maxQSize (BitVec 32)} (h : wrap maxQSize (r.rear + 1) ≠ r.front) :
    waiting r.advanceRear = waiting r ++ [Handle.ofInt (r.slot r.rear)] := by
  rw [waiting, waiting, r.contents_advanceRear h, List.map_append, List.map_singleton]

lemma waiting_advanceFront {r : Ring maxQSize (BitVec 32)} (h : r.front ≠ r.rear) :
    waiting r = Handle.ofInt (r.slot r.front) :: waiting r.advanceFront := by
  rw [waiting, waiting, r.contents_advanceFront h, List.map_cons]

namespace HandOver

def ledger (s : HandOver) : Ledger Handle := ⟨s.live, s.allocated, s.freed⟩

/-- The invariant, with the threads at `slip` and `main`. -/
structure Invariant (s : HandOver) (slip : SlipOut) (main : MainLoop)
    (r : Ring maxQSize (BitVec 32)) : Prop where
  queue : s.queue.Represents r
  slipKnows : slip.Knows r
  mainKnows : main.Knows r
  slipMutex : s.mutex = some .slip ↔ slip.locks = true
  mainMutex : s.mutex = some .main ↔ main.locks = true
  noFault : s.fault = false
  address : ∀ p id, s.live p = some id → p ≠ 0 ∧ Handle.ofInt p.toInt = p
  balanced : s.ledger.Balanced (slip.pointers ++ (waiting r ++ main.pointers)) s.lwip
  fifo : s.put = s.got ++ (waiting r).filterMap s.live
  ordered : (s.put ++ slip.pointers.filterMap s.live).Pairwise (· < ·)
  bounded : ∀ id ∈ s.put, id < s.allocated
  dropped : ∀ d ∈ s.drops, d = .noPbuf ∨ d = .queueFull 99
  counted : s.received = s.put.length + s.drops.length + slip.pending

lemma pbufUse_eq {s : HandOver} {p : Handle} (h : (s.live p).isSome) : s.pbufUse p = s := if_pos h

lemma pbufFree_eq {s : HandOver} {p : Handle} {id : Nat} (h : s.live p = some id) :
    s.pbufFree p =
      { s with live := Function.update s.live p none, freed := s.freed ++ [id] } := by
  simp only [pbufFree, h]

namespace Invariant

variable {s s' : HandOver} {slip : SlipOut} {main : MainLoop} {r : Ring maxQSize (BitVec 32)}

lemma not_main_locks (h : s.Invariant slip main r) (hslip : slip.locks = true) :
    ¬main.locks = true := by
  rw [← h.mainMutex, h.slipMutex.mpr hslip]
  exact nofun

lemma not_slip_locks (h : s.Invariant slip main r) (hmain : main.locks = true) :
    ¬slip.locks = true := by
  rw [← h.slipMutex, h.mainMutex.mpr hmain]
  exact nofun

lemma alive_slip (h : s.Invariant slip main r) {p : Handle} (hp : p ∈ slip.pointers) :
    (s.live p).isSome :=
  h.balanced.alive p (List.mem_append_left _ hp)

lemma alive_waiting (h : s.Invariant slip main r) {p : Handle} (hp : p ∈ waiting r) :
    (s.live p).isSome :=
  h.balanced.alive p (List.mem_append_right _ (List.mem_append_left _ hp))

lemma alive_main (h : s.Invariant slip main r) {p : Handle} (hp : p ∈ main.pointers) :
    (s.live p).isSome :=
  h.balanced.alive p (List.mem_append_right _ (List.mem_append_right _ hp))

lemma length_waiting (h : s.Invariant slip main r) :
    ((waiting r).filterMap s.live).length = r.length := by
  have hsome : ∀ p ∈ waiting r, (s.live p).isSome := fun p hp => h.alive_waiting hp
  rw [List.length_filterMap_eq_countP, List.countP_eq_length.mpr hsome, waiting, List.length_map,
    r.length_contents]

lemma slipReceive (h : s.Invariant s.slip s.main r)
    (hstep : handOverStep s .slipReceive = some s') : s'.Invariant s'.slip s'.main r := by
  simp only [handOverStep] at hstep
  split at hstep
  · rename_i hslip
    cases hstep
    rw [hslip] at h
    exact { h with counted := congrArg (· + 1) h.counted }
  · cases hstep

/-- `pbuf_alloc` has failed. -/
lemma noPbuf (h : s.Invariant .received main r) :
    ({ s with slip := .receiving, drops := s.drops ++ [.noPbuf] } : HandOver).Invariant
      .receiving main r := by
  have hcounted : s.received = s.put.length + (s.drops ++ [Drop.noPbuf]).length + 0 := by
    rw [h.counted, SlipOut.pending, List.length_append, List.length_singleton]
    omega
  exact { h with
    dropped := by
      intro d hd
      apply (List.mem_append.mp hd).elim (h.dropped d)
      intro hd
      exact Or.inl (List.mem_singleton.mp hd)
    counted := hcounted }

/-- `pbuf_alloc` has returned `p`. -/
lemma pbufAllocated (h : s.Invariant .received main r) {p : Handle} (hp : Allocatable s p) :
    ({ s.pbufAlloc p with slip := .allocated p } : HandOver).Invariant (.allocated p) main r := by
  obtain ⟨hne, hdead, hcast⟩ := hp
  have hheld := h.balanced.not_mem_of_dead hdead
  have hwaiting : p ∉ waiting r := fun hp =>
    hheld (List.mem_append_right _ (List.mem_append_left _ hp))
  have hids : (waiting r).filterMap (s.ledger.alloc p).live = (waiting r).filterMap s.live :=
    Ledger.filterMap_alloc hwaiting
  have hnew : [p].filterMap (s.ledger.alloc p).live = [s.allocated] :=
    List.filterMap_cons_some Ledger.alloc_live_self
  exact { h with
    address := by
      intro q id hq
      by_cases hqp : q = p
      · rw [hqp]
        exact ⟨hne, hcast⟩
      · apply h.address q id
        rw [← hq]
        exact (Function.update_of_ne hqp _ _).symm
    balanced := h.balanced.alloc hdead
    fifo := h.fifo.trans (congrArg (s.got ++ ·) hids.symm)
    ordered := by
      change (s.put ++ [p].filterMap (s.ledger.alloc p).live).Pairwise (· < ·)
      rw [hnew]
      apply List.pairwise_append.mpr
      refine ⟨(List.pairwise_append.mp h.ordered).1, List.pairwise_singleton _ _, ?_⟩
      intro id hid id' hid'
      rw [List.mem_singleton.mp hid']
      exact h.bounded id hid
    bounded := by
      intro id hid
      exact Nat.lt_succ_of_lt (h.bounded id hid)
    counted := h.counted }

lemma slipAlloc (h : s.Invariant s.slip s.main r) {result : Option Handle}
    (hstep : handOverStep s (.slipAlloc result) = some s') : s'.Invariant s'.slip s'.main r := by
  simp only [handOverStep] at hstep
  split at hstep
  · rename_i hslip
    cases hstep
    rw [hslip] at h
    exact h.noPbuf
  · rename_i p hslip
    split_ifs at hstep with hp
    cases hstep
    rw [hslip] at h
    exact h.pbufAllocated hp
  · cases hstep

lemma slipTake (h : s.Invariant s.slip s.main r)
    (hstep : handOverStep s .slipTake = some s') : s'.Invariant s'.slip s'.main r := by
  simp only [handOverStep] at hstep
  split at hstep
  · rename_i p hslip
    rw [hslip] at h
    rw [pbufUse_eq (h.alive_slip (List.mem_singleton_self p))] at hstep
    cases hstep
    exact { h with counted := h.counted }
  · cases hstep

lemma slipLock (h : s.Invariant s.slip s.main r)
    (hstep : handOverStep s .slipLock = some s') : s'.Invariant s'.slip s'.main r := by
  simp only [handOverStep] at hstep
  split at hstep
  · rename_i p hslip hmutex
    cases hstep
    rw [hslip] at h
    have hmain : ¬s.main.locks = true := by
      rw [← h.mainMutex, hmutex]
      exact nofun
    exact { h with
      slipMutex := iff_of_true rfl rfl
      mainMutex := iff_of_false nofun hmain }
  · cases hstep

lemma slipTestFull (h : s.Invariant s.slip s.main r)
    (hstep : handOverStep s .slipTestFull = some s') : s'.Invariant s'.slip s'.main r := by
  simp only [handOverStep] at hstep
  split at hstep
  · rename_i p hslip
    rw [hslip] at h
    by_cases hfull : s.queue.full = true
    · rw [if_pos hfull] at hstep
      cases hstep
      have hlength : r.length = 99 := r.length_eq_pred.mpr (h.queue.full_iff.mp hfull)
      have hput := congrArg List.length h.fifo
      rw [List.length_append, h.length_waiting, hlength] at hput
      have hwaiting : s.put.length - s.got.length = 99 := by omega
      have hcounted := h.counted
      rw [SlipOut.pending] at hcounted
      exact { h with
        slipKnows := trivial
        dropped := by
          intro d hd
          apply (List.mem_append.mp hd).elim (h.dropped d)
          intro hd
          rw [List.mem_singleton.mp hd, hwaiting]
          exact Or.inr rfl
        counted := by
          rw [List.length_append, List.length_singleton]
          exact hcounted.trans (Nat.add_assoc _ _ _) }
    · rw [if_neg hfull] at hstep
      cases hstep
      exact { h with slipKnows := fun hroom => hfull (h.queue.full_iff.mpr hroom) }
  · cases hstep

lemma slipStore (h : s.Invariant s.slip s.main r)
    (hstep : handOverStep s .slipStore = some s') :
    ∃ e, s'.Invariant s'.slip s'.main (r.store e) := by
  simp only [handOverStep] at hstep
  split at hstep
  · rename_i p hslip
    rw [hslip] at h
    obtain ⟨queue, hstore, hqueue⟩ := h.queue.storeRear p.toInt
    rw [hstore] at hstep
    cases hstep
    have hmain := h.not_main_locks rfl
    have hwaiting := waiting_store r p.toInt
    refine ⟨p.toInt, { h with
      queue := hqueue, slipKnows := ?_, mainKnows := ?_, balanced := ?_, fifo := ?_ }⟩
    · exact ⟨h.slipKnows, Function.update_self ..⟩
    · exact MainLoop.knows_of_not_locks _ hmain
    · rw [hwaiting]
      exact h.balanced
    · rw [hwaiting]
      exact h.fifo
  · cases hstep

lemma slipAdvance (h : s.Invariant s.slip s.main r)
    (hstep : handOverStep s .slipAdvance = some s') :
    s'.Invariant s'.slip s'.main r.advanceRear := by
  simp only [handOverStep] at hstep
  split at hstep
  · rename_i p hslip
    rw [hslip] at h
    obtain ⟨id, hid⟩ := Option.isSome_iff_exists.mp (h.alive_slip (List.mem_singleton_self p))
    rw [hid] at hstep
    cases hstep
    obtain ⟨hroom, hslot⟩ := h.slipKnows
    have hmain := h.not_main_locks rfl
    have hcast := (h.address p id hid).2
    have hwaiting : waiting r.advanceRear = waiting r ++ [p] := by
      rw [waiting_advanceRear hroom, hslot, hcast]
    have hperm : (p :: (waiting r ++ s.main.pointers)).Perm (waiting r ++ p :: s.main.pointers) :=
      List.perm_middle.symm
    have hids : [p].filterMap s.live = [id] := List.filterMap_cons_some hid
    have hordered := h.ordered
    rw [SlipOut.pointers, hids] at hordered
    have hcounted := h.counted
    rw [SlipOut.pending] at hcounted
    exact { h with
      queue := h.queue.advanceRear
      slipKnows := trivial
      mainKnows := MainLoop.knows_of_not_locks _ hmain
      balanced := by
        rw [hwaiting, List.append_assoc]
        exact h.balanced.perm hperm
      fifo := by
        change s.put ++ [id] = s.got ++ (waiting r.advanceRear).filterMap s.live
        rw [hwaiting, List.filterMap_append, hids, ← List.append_assoc, ← h.fifo]
      ordered := by
        rw [SlipOut.pointers, List.filterMap_nil, List.append_nil]
        exact hordered
      bounded := by
        intro id' hid'
        apply (List.mem_append.mp hid').elim (h.bounded id')
        intro hid'
        rw [List.mem_singleton.mp hid']
        exact h.balanced.live_lt p id hid
      counted := by
        change s.received = (s.put ++ [id]).length + s.drops.length + 0
        rw [List.length_append, List.length_singleton, hcounted]
        omega }
  · cases hstep

lemma address_free (h : s.Invariant slip main r) (p q : Handle) (id : Nat)
    (hq : Function.update s.live p none q = some id) : q ≠ 0 ∧ Handle.ofInt q.toInt = q := by
  by_cases hqp : q = p
  · rw [hqp, Function.update_self] at hq
    cases hq
  · rw [Function.update_of_ne hqp] at hq
    exact h.address q id hq

lemma fifo_free (h : s.Invariant slip main r) {p : Handle} (hp : p ∉ waiting r) :
    s.put = s.got ++ (waiting r).filterMap (Function.update s.live p none) := by
  have hids : (waiting r).filterMap (s.ledger.free p 0).live = (waiting r).filterMap s.live :=
    Ledger.filterMap_free hp
  exact h.fifo.trans (congrArg (s.got ++ ·) hids.symm)

lemma ordered_free (h : s.Invariant slip main r) {p : Handle} (hp : p ∉ slip.pointers) :
    (s.put ++ slip.pointers.filterMap (Function.update s.live p none)).Pairwise (· < ·) := by
  have hids : slip.pointers.filterMap (s.ledger.free p 0).live = slip.pointers.filterMap s.live :=
    Ledger.filterMap_free hp
  change (s.put ++ slip.pointers.filterMap (s.ledger.free p 0).live).Pairwise (· < ·)
  rw [hids]
  exact h.ordered

lemma slipFree (h : s.Invariant s.slip s.main r)
    (hstep : handOverStep s .slipFree = some s') : s'.Invariant s'.slip s'.main r := by
  simp only [handOverStep] at hstep
  split at hstep
  · rename_i p hslip
    rw [hslip] at h
    obtain ⟨id, hid⟩ := Option.isSome_iff_exists.mp (h.alive_slip (List.mem_singleton_self p))
    rw [pbufFree_eq hid] at hstep
    cases hstep
    have hheld : p ∉ waiting r ++ s.main.pointers := h.balanced.not_mem
    have hwaiting : p ∉ waiting r := fun hp => hheld (List.mem_append_left _ hp)
    exact { h with
      slipKnows := trivial
      address := h.address_free p
      balanced := h.balanced.free hid
      fifo := h.fifo_free hwaiting
      ordered := by
        rw [SlipOut.pointers, List.filterMap_nil, List.append_nil]
        exact (List.pairwise_append.mp h.ordered).1
      counted := h.counted }
  · cases hstep

lemma slipUnlock (h : s.Invariant s.slip s.main r)
    (hstep : handOverStep s .slipUnlock = some s') : s'.Invariant s'.slip s'.main r := by
  simp only [handOverStep] at hstep
  split at hstep
  · rename_i hslip
    cases hstep
    rw [hslip] at h
    exact { h with
      slipMutex := iff_of_false nofun nofun
      mainMutex := iff_of_false nofun (h.not_main_locks rfl) }
  · cases hstep

lemma mainLock (h : s.Invariant s.slip s.main r)
    (hstep : handOverStep s .mainLock = some s') : s'.Invariant s'.slip s'.main r := by
  simp only [handOverStep] at hstep
  split at hstep
  · rename_i hmain hmutex
    cases hstep
    rw [hmain] at h
    have hslip : ¬s.slip.locks = true := by
      rw [← h.slipMutex, hmutex]
      exact nofun
    exact { h with
      slipMutex := iff_of_false nofun hslip
      mainMutex := iff_of_true rfl rfl }
  · cases hstep

lemma mainTestEmpty (h : s.Invariant s.slip s.main r)
    (hstep : handOverStep s .mainTestEmpty = some s') : s'.Invariant s'.slip s'.main r := by
  simp only [handOverStep] at hstep
  split at hstep
  · rename_i hmain
    rw [hmain] at h
    by_cases hempty : s.queue.empty = true
    · rw [if_pos hempty] at hstep
      cases hstep
      exact { h with mainKnows := trivial }
    · rw [if_neg hempty] at hstep
      cases hstep
      exact { h with mainKnows := fun hequal => hempty (h.queue.empty_iff.mpr hequal) }
  · cases hstep

lemma mainLoad (h : s.Invariant s.slip s.main r)
    (hstep : handOverStep s .mainLoad = some s') : s'.Invariant s'.slip s'.main r := by
  simp only [handOverStep] at hstep
  split at hstep
  · rename_i hmain
    rw [hmain] at h
    rw [h.queue.loadFront] at hstep
    cases hstep
    exact { h with mainKnows := ⟨h.mainKnows, rfl⟩ }
  · cases hstep

lemma mainAdvance (h : s.Invariant s.slip s.main r)
    (hstep : handOverStep s .mainAdvance = some s') :
    s'.Invariant s'.slip s'.main r.advanceFront := by
  simp only [handOverStep] at hstep
  split at hstep
  · rename_i e hmain
    rw [hmain] at h
    obtain ⟨hnonempty, hslot⟩ := h.mainKnows
    have hwaiting : waiting r = Handle.ofInt e :: waiting r.advanceFront := by
      rw [waiting_advanceFront hnonempty, hslot]
    have hmem : Handle.ofInt e ∈ waiting r := by
      rw [hwaiting]
      exact List.mem_cons_self
    obtain ⟨id, hid⟩ := Option.isSome_iff_exists.mp (h.alive_waiting hmem)
    rw [hid] at hstep
    cases hstep
    have hpointers : MainLoop.pointers (.unlocking (Handle.ofInt e)) = [Handle.ofInt e] :=
      if_neg (h.address _ id hid).1
    have hperm : (waiting r ++ []).Perm (waiting r.advanceFront ++ [Handle.ofInt e]) := by
      rw [hwaiting, List.append_nil]
      exact (List.perm_append_singleton _ _).symm
    exact { h with
      queue := h.queue.advanceFront
      slipKnows := SlipOut.knows_of_not_locks _ (h.not_slip_locks rfl)
      mainKnows := trivial
      balanced := by
        rw [hpointers]
        exact h.balanced.perm (hperm.append_left _)
      fifo := by
        change s.put = s.got ++ [id] ++ (waiting r.advanceFront).filterMap s.live
        rw [h.fifo, hwaiting, List.filterMap_cons_some hid, List.append_assoc, List.singleton_append] }
  · cases hstep

lemma mainUnlock (h : s.Invariant s.slip s.main r)
    (hstep : handOverStep s .mainUnlock = some s') : s'.Invariant s'.slip s'.main r := by
  simp only [handOverStep] at hstep
  split at hstep
  · rename_i p hmain
    cases hstep
    rw [hmain] at h
    exact { h with
      slipMutex := iff_of_false nofun (h.not_slip_locks rfl)
      mainMutex := iff_of_false nofun nofun }
  · cases hstep

lemma mainNull (h : s.Invariant s.slip s.main r)
    (hstep : handOverStep s .mainNull = some s') : s'.Invariant s'.slip s'.main r := by
  simp only [handOverStep] at hstep
  split at hstep
  · rename_i p hmain
    split_ifs at hstep with hp
    cases hstep
    rw [hmain] at h
    have hbalanced := h.balanced
    rw [MainLoop.pointers, if_pos hp] at hbalanced
    exact { h with balanced := hbalanced }
  · cases hstep

lemma mainRxProc (h : s.Invariant s.slip s.main r) {consumed : Bool}
    (hstep : handOverStep s (.mainRxProc consumed) = some s') : s'.Invariant s'.slip s'.main r := by
  simp only [handOverStep] at hstep
  split at hstep
  · rename_i p hmain
    by_cases hp : p = 0
    · rw [if_pos hp] at hstep
      cases hstep
    rw [if_neg hp] at hstep
    rw [hmain] at h
    have hpointers : MainLoop.pointers (.got p) = [p] := if_neg hp
    have hbalanced := h.balanced
    rw [hpointers] at hbalanced
    have halive : p ∈ MainLoop.pointers (.got p) := by simp [hpointers]
    rw [pbufUse_eq (h.alive_main halive)] at hstep
    cases hstep
    cases consumed with
    | false => exact { h with mainKnows := trivial, balanced := hbalanced }
    | true => exact { h with mainKnows := trivial, balanced := hbalanced }
  · cases hstep

lemma balanced_main (h : s.Invariant slip main r) {p : Handle} (hmain : main.pointers = [p]) :
    s.ledger.Balanced (p :: (slip.pointers ++ (waiting r ++ []))) s.lwip := by
  apply h.balanced.perm
  rw [hmain, List.append_nil, ← List.append_assoc]
  exact List.perm_append_singleton p _

lemma mainInput (h : s.Invariant s.slip s.main r) {ok : Bool}
    (hstep : handOverStep s (.mainInput ok) = some s') : s'.Invariant s'.slip s'.main r := by
  simp only [handOverStep] at hstep
  split at hstep
  · rename_i p hmain
    rw [hmain] at h
    have halive := h.alive_main (List.mem_singleton_self p)
    obtain ⟨id, hid⟩ := Option.isSome_iff_exists.mp halive
    rw [pbufUse_eq halive, hid] at hstep
    cases ok with
    | true =>
      cases hstep
      exact { h with
        mainKnows := trivial
        balanced := (h.balanced_main rfl).give hid }
    | false =>
      cases hstep
      exact { h with mainKnows := trivial }
  · cases hstep

lemma mainFree (h : s.Invariant s.slip s.main r)
    (hstep : handOverStep s .mainFree = some s') : s'.Invariant s'.slip s'.main r := by
  simp only [handOverStep] at hstep
  split at hstep
  · rename_i p hmain
    rw [hmain] at h
    obtain ⟨id, hid⟩ := Option.isSome_iff_exists.mp (h.alive_main (List.mem_singleton_self p))
    rw [pbufFree_eq hid] at hstep
    cases hstep
    have hbalanced := h.balanced_main rfl
    have hheld : p ∉ s.slip.pointers ++ (waiting r ++ []) := hbalanced.not_mem
    have hslip : p ∉ s.slip.pointers := fun hp => hheld (List.mem_append_left _ hp)
    have hwaiting : p ∉ waiting r := fun hp =>
      hheld (List.mem_append_right _ (List.mem_append_left _ hp))
    exact { h with
      mainKnows := trivial
      address := h.address_free p
      balanced := hbalanced.free hid
      fifo := h.fifo_free hwaiting
      ordered := h.ordered_free hslip }
  · cases hstep

lemma lwipFree (h : s.Invariant s.slip s.main r) {p : Handle}
    (hstep : handOverStep s (.lwipFree p) = some s') : s'.Invariant s'.slip s'.main r := by
  simp only [handOverStep] at hstep
  split at hstep
  · rename_i id hid
    split_ifs at hstep with hgiven
    rw [pbufFree_eq hid] at hstep
    cases hstep
    have hheld := h.balanced.not_mem_of_given hid hgiven
    have hslip : p ∉ s.slip.pointers := fun hp => hheld (List.mem_append_left _ hp)
    have hwaiting : p ∉ waiting r := fun hp =>
      hheld (List.mem_append_right _ (List.mem_append_left _ hp))
    exact { h with
      address := h.address_free p
      balanced := h.balanced.freeGiven hid hgiven
      fifo := h.fifo_free hwaiting
      ordered := h.ordered_free hslip }
  · cases hstep

end Invariant

end HandOver

end EthoSlip
