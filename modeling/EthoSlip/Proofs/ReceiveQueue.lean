import EthoSlip.Lib.Fifo
import EthoSlip.Model.Queue

/-!
# The receive queue as a circular buffer

`SqQueue` counts its indices in `int` with `%`. As long as they are in range it is a circular buffer
with one free slot, and each function of `queue.c` is the one of a FIFO that holds 99 elements.
-/

namespace EthoSlip

open Lib

structure SqQueue.Represents (q : SqQueue) (r : Ring maxQSize (BitVec 32)) : Prop where
  front : q.front = r.front
  rear : q.rear = r.rear
  slot : ∀ k (hk : k < maxQSize), q.base.get ⟨k, hk⟩ = r.slot k

lemma tmod_eq_wrap {i : Nat} (h : i < 2 * maxQSize) : (i : Int).tmod maxQSize = wrap maxQSize i := by
  rw [← Int.ofNat_tmod]
  apply congrArg Nat.cast
  unfold wrap
  split_ifs with hi
  · exact Nat.mod_eq_of_lt hi
  · rw [Nat.mod_eq_sub_mod (by omega)]
    exact Nat.mod_eq_of_lt (by omega)

lemma mod_eq_wrap {i : Nat} (h : i < 2 * maxQSize) : i % maxQSize = wrap maxQSize i := by
  have htmod := tmod_eq_wrap h
  rw [← Int.ofNat_tmod] at htmod
  exact Int.ofNat_inj.mp htmod

def initRing (base : Vector (BitVec 32) maxQSize) : Ring maxQSize (BitVec 32) where
  slot k := base.getD k 0
  front := 0
  rear := 0
  front_lt := by decide
  rear_lt := by decide

lemma qInit_represents (base : Vector (BitVec 32) maxQSize) :
    (qInit base).Represents (initRing base) where
  front := rfl
  rear := rfl
  slot k hk := by
    have h : base.getD k 0 = base[k] := by simp [Vector.getD, hk]
    exact h.symm

namespace SqQueue.Represents

variable {q : SqQueue} {r : Ring maxQSize (BitVec 32)}

lemma rear_tmod (h : q.Represents r) :
    (q.rear + 1).tmod maxQSize = (wrap maxQSize (r.rear + 1) : Nat) := by
  have hrear := r.rear_lt
  have hcast : (r.rear : Int) + 1 = (r.rear + 1 : Nat) := rfl
  rw [h.rear, hcast]
  exact tmod_eq_wrap (by omega)

lemma front_tmod (h : q.Represents r) :
    (q.front + 1).tmod maxQSize = (wrap maxQSize (r.front + 1) : Nat) := by
  have hfront := r.front_lt
  have hcast : (r.front : Int) + 1 = (r.front + 1 : Nat) := rfl
  rw [h.front, hcast]
  exact tmod_eq_wrap (by omega)

lemma full_iff (h : q.Represents r) : q.full = true ↔ wrap maxQSize (r.rear + 1) = r.front := by
  rw [SqQueue.full, decide_eq_true_iff, h.rear_tmod, h.front]
  exact Int.ofNat_inj

lemma empty_iff (h : q.Represents r) : q.empty = true ↔ r.front = r.rear := by
  rw [SqQueue.empty, decide_eq_true_iff, h.front, h.rear]
  exact Int.ofNat_inj

lemma length_eq (h : q.Represents r) : qLength q = r.length := by
  have hfront := r.front_lt
  have hrear := r.rear_lt
  have hsub : q.rear - q.front + maxQSize = ((r.rear + maxQSize - r.front : Nat) : Int) := by
    rw [h.front, h.rear]
    omega
  rw [qLength, hsub, tmod_eq_wrap (by omega)]
  apply congrArg Nat.cast
  unfold wrap Ring.length
  split_ifs <;> omega

lemma contents_eq (h : q.Represents r) : q.contents = r.contents := by
  have hfront := r.front_lt
  have hlt := r.length_lt
  have hindex : q.front.toNat = r.front := by rw [h.front]; rfl
  rw [SqQueue.contents, Ring.contents, h.length_eq, Int.toNat_natCast]
  apply List.map_congr_left
  intro k hk
  have hk' : k < r.length := List.mem_range.mp hk
  rw [h.slot, hindex, mod_eq_wrap (by omega)]

lemma storeRear (h : q.Represents r) (e : BitVec 32) :
    ∃ q' : SqQueue, q.storeRear e = some q' ∧ q'.Represents (r.store e) := by
  have hrear := r.rear_lt
  have hindex : q.rear.toNat = r.rear := by rw [h.rear]; rfl
  have hrange : 0 ≤ q.rear ∧ q.rear < maxQSize := by
    rw [h.rear]
    omega
  refine ⟨_, dif_pos hrange, h.front, h.rear, ?_⟩
  intro k hk
  change (q.base.set q.rear.toNat e (by omega))[k] = Function.update r.slot r.rear e k
  have hslot : q.base[k] = r.slot k := h.slot k hk
  rw [Vector.getElem_set, Function.update_apply, hindex, hslot]
  by_cases hk' : r.rear = k
  · rw [if_pos hk', if_pos hk'.symm]
  · rw [if_neg hk', if_neg (Ne.symm hk')]

lemma loadFront (h : q.Represents r) : q.loadFront = some (r.slot r.front) := by
  have hfront := r.front_lt
  have hindex : q.front.toNat = r.front := by rw [h.front]; rfl
  have hrange : 0 ≤ q.front ∧ q.front < maxQSize := by
    rw [h.front]
    omega
  rw [SqQueue.loadFront, dif_pos hrange, h.slot, hindex]

lemma advanceRear (h : q.Represents r) : q.advanceRear.Represents r.advanceRear where
  front := h.front
  rear := h.rear_tmod
  slot := h.slot

lemma advanceFront (h : q.Represents r) : q.advanceFront.Represents r.advanceFront where
  front := h.front_tmod
  rear := h.rear
  slot := h.slot

lemma clear (h : q.Represents r) : (qClear q).Represents r.clear where
  front := rfl
  rear := rfl
  slot := h.slot

end SqQueue.Represents

/-- The queue holds the elements of `f`. -/
def SqQueue.Holds (q : SqQueue) (f : Fifo 99 (BitVec 32)) : Prop :=
  ∃ r, q.Represents r ∧ r.toFifo = f

lemma qInit_holds (base : Vector (BitVec 32) maxQSize) : (qInit base).Holds .empty :=
  ⟨initRing base, qInit_represents base, rfl⟩

namespace SqQueue.Holds

variable {q : SqQueue} {f f' : Fifo 99 (BitVec 32)} {a : BitVec 32} (e : BitVec 32)

lemma contents (h : q.Holds f) : q.contents = f.items := by
  obtain ⟨r, hr, rfl⟩ := h
  exact hr.contents_eq

lemma front_range (h : q.Holds f) : 0 ≤ q.front ∧ q.front < 100 := by
  obtain ⟨r, hr, -⟩ := h
  have hfront : r.front < 100 := r.front_lt
  rw [hr.front]
  omega

lemma rear_range (h : q.Holds f) : 0 ≤ q.rear ∧ q.rear < 100 := by
  obtain ⟨r, hr, -⟩ := h
  have hrear : r.rear < 100 := r.rear_lt
  rw [hr.rear]
  omega

lemma empty_iff (h : q.Holds f) : q.empty = true ↔ f = .empty := by
  obtain ⟨r, hr, rfl⟩ := h
  rw [hr.empty_iff]
  exact r.empty_iff

lemma full_iff (h : q.Holds f) : q.full = true ↔ f.items.length = 99 := by
  obtain ⟨r, hr, rfl⟩ := h
  rw [hr.full_iff]
  exact r.full_iff

lemma put_full (h : q.Holds f) (hf : f.items.length = 99) : qPut q e = some (q, -1) := by
  rw [qPut, if_pos (h.full_iff.mpr hf)]

lemma put_room (h : q.Holds f) (hf : f.put e = some f') :
    ∃ q', qPut q e = some (q', 1) ∧ q'.Holds f' := by
  have hnot : ¬q.full = true := by
    rw [h.full_iff, ← f.put_eq_none e, hf]
    exact Option.some_ne_none f'
  obtain ⟨r, hr, rfl⟩ := h
  rw [hr.full_iff] at hnot
  rw [r.toFifo_put e hnot, Option.some.injEq] at hf
  obtain ⟨q', hstore, hr'⟩ := hr.storeRear e
  refine ⟨q'.advanceRear, ?_, _, hr'.advanceRear, hf⟩
  rw [← hr.full_iff] at hnot
  rw [qPut, if_neg hnot, hstore, Option.map_some]

lemma put_fails_iff (h : q.Holds f) : qPut q e = some (q, -1) ↔ f.items.length = 99 := by
  constructor
  · intro hput
    cases hf : f.put e with
    | none => exact (f.put_eq_none e).mp hf
    | some f' =>
      obtain ⟨q', hput', -⟩ := h.put_room e hf
      rw [hput', Option.some.injEq, Prod.mk.injEq] at hput
      exact absurd hput.2 (by decide)
  · exact h.put_full e

lemma loadFront (h : q.Holds f) (hf : f.poll = some (a, f')) :
    ¬q.empty = true ∧ q.loadFront = some a ∧ q.advanceFront.Holds f' := by
  have hnot : ¬q.empty = true := by
    rw [h.empty_iff]
    rintro rfl
    exact Option.some_ne_none _ hf.symm
  obtain ⟨r, hr, rfl⟩ := h
  refine ⟨hnot, ?_⟩
  rw [hr.empty_iff] at hnot
  rw [r.toFifo_poll hnot, Option.some.injEq, Prod.mk.injEq] at hf
  rw [hr.loadFront, hf.1]
  exact ⟨rfl, _, hr.advanceFront, hf.2⟩

lemma poll_empty (h : q.Holds .empty) : qPoll q e = some (q, e, -1) := by
  rw [qPoll, if_pos (h.empty_iff.mpr rfl)]

lemma poll_front (h : q.Holds f) (hf : f.poll = some (a, f')) :
    ∃ q', qPoll q e = some (q', a, 1) ∧ q'.Holds f' := by
  obtain ⟨hnot, hload, hadvance⟩ := h.loadFront hf
  refine ⟨q.advanceFront, ?_, hadvance⟩
  rw [qPoll, if_neg hnot, hload, Option.map_some]

lemma poll_fails_iff (h : q.Holds f) : qPoll q e = some (q, e, -1) ↔ f.items = [] := by
  constructor
  · intro hpoll
    cases hf : f.poll with
    | none => exact congrArg Fifo.items ((f.poll_eq_none).mp hf)
    | some r =>
      obtain ⟨q', hpoll', -⟩ := h.poll_front e hf
      rw [hpoll', Option.some.injEq, Prod.mk.injEq, Prod.mk.injEq] at hpoll
      exact absurd hpoll.2.2 (by decide)
  · intro hitems
    have hf : f = .empty := Fifo.ext hitems
    subst hf
    exact h.poll_empty e

lemma getHead_empty (h : q.Holds .empty) : qGetHead q e = some (e, -1) := by
  rw [qGetHead, if_pos (h.empty_iff.mpr rfl)]

lemma getHead_front (h : q.Holds f) (hf : f.poll = some (a, f')) : qGetHead q e = some (a, 1) := by
  obtain ⟨hnot, hload, -⟩ := h.loadFront hf
  rw [qGetHead, if_neg hnot, hload, Option.map_some]

lemma length (h : q.Holds f) : qLength q = f.items.length := by
  obtain ⟨r, hr, rfl⟩ := h
  rw [hr.length_eq, ← Ring.length_contents]
  rfl

lemma qEmpty_eq (h : q.Holds f) : qEmpty q = if f.items = [] then 1 else -1 := by
  have hiff : f = .empty ↔ f.items = [] := Fifo.ext_iff
  simp only [qEmpty, h.empty_iff, hiff]

lemma clear (h : q.Holds f) : (qClear q).Holds .empty := by
  obtain ⟨r, hr, -⟩ := h
  exact ⟨r.clear, hr.clear, r.toFifo_clear⟩

end SqQueue.Holds

end EthoSlip
