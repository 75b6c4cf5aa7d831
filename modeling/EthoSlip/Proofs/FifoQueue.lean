import EthoSlip.Lib.Run
import EthoSlip.Proofs.ReceiveQueue

/-!
# The receive queue is a FIFO

Any sequence of calls to the functions of `queue.c` gives the results that a list of at most 99
elements gives, and both indices stay inside the array.
-/

namespace EthoSlip
open Lib

section Fifo

variable {capacity : Nat}

/-- What the calls are for, on a list of the elements. -/
def fifoStep (f : Fifo capacity (BitVec 32)) : QOp → Fifo capacity (BitVec 32) × QResult
  | .put e =>
    match f.put e with
    | none => (f, .returned (-1))
    | some f' => (f', .returned 1)
  | .poll e =>
    match f.poll with
    | none => (f, .returnedWith (-1) e)
    | some (a, f') => (f', .returnedWith 1 a)
  | .getHead e =>
    match f.items.head? with
    | none => (f, .returnedWith (-1) e)
    | some a => (f, .returnedWith 1 a)
  | .length => (f, .returned f.items.length)
  | .empty => (f, .returned (if f.items = [] then 1 else -1))
  | .clear => (.empty, .void)

def fifoRun (ops : List QOp) : Option (Fifo capacity (BitVec 32) × List QResult) :=
  runResults (fun f op => some (fifoStep f op)) .empty ops

end Fifo

lemma queueStep_holds {q : SqQueue} {f : Fifo 99 (BitVec 32)} (h : q.Holds f) (op : QOp) :
    ∃ q', queueStep q op = some (q', (fifoStep f op).2) ∧ q'.Holds (fifoStep f op).1 := by
  cases op with
  | put e =>
    cases hf : f.put e with
    | none =>
      have hput := h.put_full e ((f.put_eq_none e).mp hf)
      refine ⟨q, ?_, ?_⟩
      · rw [queueStep, hput, fifoStep, hf, Option.map_some]
      · rw [fifoStep, hf]
        exact h
    | some f' =>
      obtain ⟨q', hput, h'⟩ := h.put_room e hf
      refine ⟨q', ?_, ?_⟩
      · rw [queueStep, hput, fifoStep, hf, Option.map_some]
      · rw [fifoStep, hf]
        exact h'
  | poll e =>
    cases hf : f.poll with
    | none =>
      rw [f.poll_eq_none] at hf
      subst hf
      refine ⟨q, ?_, h⟩
      rw [queueStep, h.poll_empty, Option.map_some]
      rfl
    | some r =>
      obtain ⟨q', hpoll, h'⟩ := h.poll_front e hf
      refine ⟨q', ?_, ?_⟩
      · rw [queueStep, hpoll, fifoStep, hf, Option.map_some]
      · rw [fifoStep, hf]
        exact h'
  | getHead e =>
    have hhead := f.head?_items
    cases hf : f.poll with
    | none =>
      rw [hf, Option.map_none] at hhead
      rw [f.poll_eq_none] at hf
      subst hf
      refine ⟨q, ?_, h⟩
      rw [queueStep, h.getHead_empty, Option.map_some]
      rfl
    | some r =>
      rw [hf, Option.map_some] at hhead
      refine ⟨q, ?_, ?_⟩
      · rw [queueStep, h.getHead_front e hf, fifoStep, hhead, Option.map_some]
      · rw [fifoStep, hhead]
        exact h
  | length => exact ⟨q, by rw [queueStep, h.length, fifoStep], h⟩
  | empty => exact ⟨q, by rw [queueStep, h.qEmpty_eq, fifoStep], h⟩
  | clear => exact ⟨qClear q, rfl, h.clear⟩

/-- Every sequence of calls from `Q_Init` goes through without leaving the array and gives the
results of a FIFO of capacity 99. A `Q_Put` into the full queue and a `Q_Poll` from the empty one
change nothing. -/
theorem queue_refines_fifo (base : Vector (BitVec 32) maxQSize) (ops : List QOp) :
    ∃ (q : SqQueue) (f : Fifo 99 (BitVec 32)) (results : List QResult),
      runResults queueStep (qInit base) ops = some (q, results) ∧
      fifoRun ops = some (f, results) ∧
      q.contents = f.items ∧
      (0 ≤ q.front ∧ q.front < 100) ∧ (0 ≤ q.rear ∧ q.rear < 100) ∧
      (∀ e, qPut q e = some (q, -1) ↔ f.items.length = 99) ∧
      (∀ e, qPoll q e = some (q, e, -1) ↔ f.items = []) := by
  have hstep : ∀ (q : SqQueue) (f : Fifo 99 (BitVec 32)) (op : QOp), q.Holds f →
      ∃ q' f' result, queueStep q op = some (q', result) ∧
        some (fifoStep f op) = some (f', result) ∧ q'.Holds f' := by
    intro q f op h
    obtain ⟨q', hq, h'⟩ := queueStep_holds h op
    exact ⟨q', _, _, hq, rfl, h'⟩
  obtain ⟨q, f, results, hq, hf, h⟩ := runResults_related hstep (qInit_holds base) ops
  refine ⟨q, f, results, hq, hf, h.contents, h.front_range, h.rear_range, ?_, ?_⟩
  · intro e
    exact h.put_fails_iff e
  · intro e
    exact h.poll_fails_iff e

end EthoSlip
