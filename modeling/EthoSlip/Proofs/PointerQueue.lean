import EthoSlip.Proofs.ReceiveQueue

/-!
# Pointers through the receive queue

`queue_try_put` narrows a pointer to `int`, and `queue_try_get` widens it again with its sign. The
queue keeps its order; what comes out is the pointer that went in when that was within the range of
an `int`.
-/

namespace EthoSlip
open Lib

def QueueCall.acceptedPointer : QueueCall → Option Handle
  | .tryPut p result => if result = 1 then some p else none
  | .tryGet _ => none

def QueueCall.returnedPointer : QueueCall → Option Handle
  | .tryPut _ _ => none
  | .tryGet result => if result = 0 then none else some result

/-- The pointers that `queue_try_put` has accepted. -/
def acceptedPointers (calls : List QueueCall) : List Handle :=
  calls.filterMap QueueCall.acceptedPointer

/-- The results of `queue_try_get` other than NULL. -/
def returnedPointers (calls : List QueueCall) : List Handle :=
  calls.filterMap QueueCall.returnedPointer

lemma returnedPointers_get {p : Handle} (hp : p ≠ 0) (calls : List QueueCall) :
    returnedPointers (.tryGet p :: calls) = p :: returnedPointers calls :=
  List.filterMap_cons_some (if_neg hp)

/-- A queue in which the pointers `waiting` stand works: those that are returned are those accepted,
in order, and NULL is returned just when none of them is left. -/
structure FaithfulCalls (waiting : List Handle) (calls : List QueueCall) : Prop where
  in_order : returnedPointers calls <+: waiting ++ acceptedPointers calls
  null_iff : ∀ before p after, calls = before ++ .tryGet p :: after →
    (p = 0 ↔ returnedPointers before = waiting ++ acceptedPointers before)

/-- A pointer that an `int` can hold. -/
def FitsInt (p : Handle) : Prop := p.toNat < 2 ^ 31 ∨ 2 ^ 64 - 2 ^ 31 ≤ p.toNat

/-- The pointers that come out of a queue with room for 99 pointers, where `waiting` is in it. -/
def takenPointers : List Handle → List QueueOp → List Handle
  | _, [] => []
  | waiting, .tryPut p :: ops =>
    takenPointers (if waiting.length < maxQSize - 1 then waiting ++ [p] else waiting) ops
  | [], .tryGet _ :: ops => takenPointers [] ops
  | p :: waiting, .tryGet _ :: ops => p :: takenPointers waiting ops

lemma ofInt_toInt_iff (p : Handle) : Handle.ofInt p.toInt = p ↔ FitsInt p := by
  have hlow : (p.setWidth 32).toNat = p.toNat % 2 ^ 32 := BitVec.toNat_setWidth 32 p
  have hp := p.isLt
  rw [Handle.ofInt, Handle.toInt, FitsInt, ← BitVec.toNat_inj, BitVec.toNat_signExtend,
    BitVec.toNat_setWidth_of_le (by decide), hlow, BitVec.msb_eq_decide, hlow]
  by_cases hmsb : 2 ^ (32 - 1) ≤ p.toNat % 2 ^ 32
  · simp only [hmsb, decide_true, if_true]
    omega
  · simp only [hmsb, decide_false, Bool.false_eq_true, if_false]
    omega

/-- The queue holds the pointers `waiting` as `int`s. -/
def SqQueue.Carries (q : SqQueue) (waiting : List Handle) : Prop :=
  ∃ r, q.Represents r ∧ r.contents = waiting.map Handle.toInt

section Carries

variable {q : SqQueue} {waiting : List Handle}

lemma carries_iff : q.Carries waiting ↔
    ∃ f : Fifo 99 (BitVec 32), q.Holds f ∧ f.items = waiting.map Handle.toInt := by
  constructor
  · rintro ⟨r, hr, hcontents⟩
    exact ⟨r.toFifo, ⟨r, hr, rfl⟩, hcontents⟩
  · rintro ⟨f, ⟨r, hr, rfl⟩, hitems⟩
    exact ⟨r, hr, hitems⟩

lemma carries_init (base : Vector (BitVec 32) maxQSize) : (qInit base).Carries [] := by
  rw [carries_iff]
  exact ⟨.empty, qInit_holds base, rfl⟩

lemma SqQueue.Carries.tryPut (h : q.Carries waiting) (p : Handle) :
    ∃ q', if waiting.length < maxQSize - 1 then
        queueTryPut q p = some (q', 1) ∧ q'.Carries (waiting ++ [p])
      else queueTryPut q p = some (q', 0) ∧ q'.Carries waiting := by
  obtain ⟨f, hf, hitems⟩ := carries_iff.mp h
  have hbounded := f.bounded
  have hlen : f.items.length = waiting.length := by rw [hitems, List.length_map]
  by_cases hroom : waiting.length < maxQSize - 1
  · have hlt : f.items.length < 99 := by
      rw [hlen]
      exact hroom
    obtain ⟨f', hf', hitems'⟩ := f.put_of_lt p.toInt hlt
    obtain ⟨q', hput, hq'⟩ := hf.put_room p.toInt hf'
    refine ⟨q', ?_⟩
    rw [if_pos hroom]
    constructor
    · rw [queueTryPut, hput]
      rfl
    · rw [carries_iff]
      refine ⟨f', hq', ?_⟩
      rw [hitems', hitems, List.map_append, List.map_singleton]
  · have hfull : f.items.length = 99 := by
      rw [hlen] at hbounded ⊢
      exact Nat.le_antisymm hbounded (Nat.not_lt.mp hroom)
    refine ⟨q, ?_⟩
    rw [if_neg hroom]
    refine ⟨?_, h⟩
    rw [queueTryPut, hf.put_full _ hfull]
    rfl

lemma SqQueue.Carries.tryGet_nil (h : q.Carries []) (e : BitVec 32) :
    queueTryGet q e = some (q, 0) := by
  obtain ⟨f, hf, hitems⟩ := carries_iff.mp h
  rw [queueTryGet, (hf.poll_fails_iff e).mpr hitems]
  rfl

lemma SqQueue.Carries.tryGet_cons {p : Handle} (h : q.Carries (p :: waiting)) (e : BitVec 32) :
    ∃ q', queueTryGet q e = some (q', Handle.ofInt p.toInt) ∧ q'.Carries waiting := by
  obtain ⟨⟨items, hbounded⟩, hf, rfl⟩ := carries_iff.mp h
  obtain ⟨q', hpoll, hq'⟩ := hf.poll_front e rfl
  refine ⟨q', ?_, carries_iff.mpr ⟨_, hq', rfl⟩⟩
  rw [queueTryGet, hpoll]
  rfl

end Carries

section FirstCall

variable {waiting : List Handle} {calls : List QueueCall}

/-- A first call that is not `queue_try_get` gives no split at it. -/
lemma faithful_put (p : Handle) (result : Int) :
    FaithfulCalls waiting (.tryPut p result :: calls) ↔
      FaithfulCalls (if result = 1 then waiting ++ [p] else waiting) calls := by
  have hmore (cs : List QueueCall) : waiting ++ acceptedPointers (.tryPut p result :: cs) =
      (if result = 1 then waiting ++ [p] else waiting) ++ acceptedPointers cs := by
    by_cases h : result = 1
    · simp [acceptedPointers, QueueCall.acceptedPointer, h]
    · simp [acceptedPointers, QueueCall.acceptedPointer, h]
  have hreturned (cs : List QueueCall) :
      returnedPointers (.tryPut p result :: cs) = returnedPointers cs := rfl
  constructor
  · intro h
    constructor
    · rw [← hmore, ← hreturned]
      exact h.in_order
    · intro before p' after hsplit
      rw [← hmore, ← hreturned]
      exact h.null_iff (.tryPut p result :: before) p' after (by rw [hsplit, List.cons_append])
  · intro h
    constructor
    · rw [hmore, hreturned]
      exact h.in_order
    · intro before p' after hsplit
      cases before with
      | nil => simp at hsplit
      | cons call before =>
        rw [List.cons_append, List.cons.injEq] at hsplit
        rw [← hsplit.1, hmore, hreturned]
        exact h.null_iff before p' after hsplit.2

/-- With nothing waiting, NULL is the right answer. -/
lemma faithful_get_nil : FaithfulCalls [] (.tryGet 0 :: calls) ↔ FaithfulCalls [] calls := by
  constructor
  · intro h
    constructor
    · exact h.in_order
    · intro before p' after hsplit
      exact h.null_iff (.tryGet 0 :: before) p' after (by rw [hsplit, List.cons_append])
  · intro h
    constructor
    · exact h.in_order
    · intro before p' after hsplit
      cases before with
      | nil =>
        simp only [List.nil_append, List.cons.injEq, QueueCall.tryGet.injEq] at hsplit
        exact iff_of_true hsplit.1.symm rfl
      | cons call before =>
        rw [List.cons_append, List.cons.injEq] at hsplit
        rw [← hsplit.1]
        exact h.null_iff before p' after hsplit.2

/-- With `p` at the front, `p` is the right answer. -/
lemma faithful_get_cons {p p' : Handle} (hp : p ≠ 0) :
    FaithfulCalls (p :: waiting) (.tryGet p' :: calls) ↔ p' = p ∧ FaithfulCalls waiting calls := by
  have hreturned := returnedPointers_get hp
  have haccepted (cs : List QueueCall) :
      p :: waiting ++ acceptedPointers (.tryGet p :: cs) = p :: (waiting ++ acceptedPointers cs) := rfl
  constructor
  · intro h
    have hp' : p' ≠ 0 := by
      intro hnull
      have hall := (h.null_iff [] p' calls rfl).mp hnull
      exact absurd hall.symm (List.cons_ne_nil _ _)
    have horder := h.in_order
    rw [returnedPointers_get hp', List.cons_append, List.cons_prefix_cons] at horder
    obtain ⟨rfl, horder⟩ := horder
    refine ⟨rfl, horder, ?_⟩
    intro before p'' after hsplit
    have hnull := h.null_iff (.tryGet p' :: before) p'' after (by rw [hsplit, List.cons_append])
    rw [hreturned, haccepted, List.cons.injEq] at hnull
    rw [hnull]
    exact ⟨fun h => h.2, fun h => ⟨rfl, h⟩⟩
  · rintro ⟨rfl, h⟩
    constructor
    · rw [hreturned, haccepted, List.cons_prefix_cons]
      exact ⟨rfl, h.in_order⟩
    · intro before p'' after hsplit
      cases before with
      | nil =>
        simp only [List.nil_append, List.cons.injEq, QueueCall.tryGet.injEq] at hsplit
        rw [← hsplit.1]
        exact iff_of_false hp (fun hall => List.cons_ne_nil _ _ hall.symm)
      | cons call before =>
        rw [List.cons_append, List.cons.injEq] at hsplit
        rw [← hsplit.1, hreturned, haccepted, List.cons.injEq]
        rw [h.null_iff before p'' after hsplit.2]
        exact ⟨fun h => ⟨rfl, h⟩, fun h => h.2⟩

end FirstCall

lemma faithful_nil (waiting : List Handle) : FaithfulCalls waiting [] where
  in_order := List.nil_prefix
  null_iff := by
    intro before p after hsplit
    simp at hsplit

lemma queueCalls_faithful_iff (ops : List QueueOp) {q : SqQueue} {waiting : List Handle}
    (hq : q.Carries waiting) (hwaiting : ∀ p ∈ waiting, p ≠ 0)
    (hops : ∀ p, .tryPut p ∈ ops → p ≠ 0) :
    ∃ calls, queueCalls q ops = some calls ∧
      (FaithfulCalls waiting calls ↔ ∀ p ∈ takenPointers waiting ops, FitsInt p) := by
  induction ops generalizing q waiting with
  | nil => exact ⟨[], rfl, iff_of_true (faithful_nil waiting) (by simp [takenPointers])⟩
  | cons op ops ih =>
    have hrest : ∀ p, .tryPut p ∈ ops → p ≠ 0 := fun p hp => hops p (by simp [hp])
    cases op with
    | tryPut p =>
      have hp : p ≠ 0 := hops p (by simp)
      obtain ⟨q', hput⟩ := hq.tryPut p
      rw [takenPointers]
      split_ifs at hput ⊢ with hroom
      · have hwaiting' : ∀ p' ∈ waiting ++ [p], p' ≠ 0 := by
          intro p' hp'
          rcases List.mem_append.mp hp' with hp' | hp'
          · exact hwaiting p' hp'
          · rw [List.mem_singleton.mp hp']
            exact hp
        obtain ⟨calls, hcalls, hiff⟩ := ih hput.2 hwaiting' hrest
        refine ⟨.tryPut p 1 :: calls, ?_, ?_⟩
        · simp [queueCalls, queueCall, hput.1, hcalls]
        · rw [faithful_put, if_pos rfl, hiff]
      · obtain ⟨calls, hcalls, hiff⟩ := ih hput.2 hwaiting hrest
        refine ⟨.tryPut p 0 :: calls, ?_, ?_⟩
        · simp [queueCalls, queueCall, hput.1, hcalls]
        · rw [faithful_put, if_neg (by decide), hiff]
    | tryGet e =>
      cases waiting with
      | nil =>
        obtain ⟨calls, hcalls, hiff⟩ := ih hq hwaiting hrest
        refine ⟨.tryGet 0 :: calls, ?_, ?_⟩
        · simp [queueCalls, queueCall, hq.tryGet_nil e, hcalls]
        · rw [faithful_get_nil, takenPointers, hiff]
      | cons p waiting =>
        have hp : p ≠ 0 := hwaiting p (by simp)
        obtain ⟨q', hget, hq'⟩ := hq.tryGet_cons e
        obtain ⟨calls, hcalls, hiff⟩ := ih hq' (fun p' hp' => hwaiting p' (by simp [hp'])) hrest
        refine ⟨.tryGet (Handle.ofInt p.toInt) :: calls, ?_, ?_⟩
        · simp [queueCalls, queueCall, hget, hcalls]
        · rw [faithful_get_cons hp, takenPointers, List.forall_mem_cons, hiff, ofInt_toInt_iff]

/-- For every sequence of calls from `Q_Init` that puts no NULL, `queue_try_get` returns the
accepted pointers in order, and NULL just when there is none left, if and only if every pointer that
it takes out of the queue can be held by an `int`. -/
theorem pointers_survive_iff (base : Vector (BitVec 32) maxQSize) (ops : List QueueOp)
    (hops : ∀ p, .tryPut p ∈ ops → p ≠ 0) :
    ∃ calls, queueCalls (qInit base) ops = some calls ∧
      (FaithfulCalls [] calls ↔ ∀ p ∈ takenPointers [] ops, FitsInt p) :=
  queueCalls_faithful_iff ops (carries_init base) (by simp) hops

/-- A heap address of a position-independent program comes out with its upper half lost. -/
def pieHeapPointer : Handle := 0x0000555555559260

/-- Two pointers that an `int` can hold, and a third `queue_try_get` that finds the queue empty. -/
theorem pointers_survive_iff_witness :
    queueCalls (qInit (Vector.replicate _ 0))
        [.tryPut 0x0804b008, .tryPut 0x0804c010, .tryGet 0, .tryGet 0, .tryGet 0] =
      some [.tryPut 0x0804b008 1, .tryPut 0x0804c010 1, .tryGet 0x0804b008, .tryGet 0x0804c010,
        .tryGet 0] ∧
    FaithfulCalls [] [.tryPut 0x0804b008 1, .tryPut 0x0804c010 1, .tryGet 0x0804b008,
      .tryGet 0x0804c010, .tryGet 0] := by
  have hops : ∀ p, QueueOp.tryPut p ∈
      [.tryPut 0x0804b008, .tryPut 0x0804c010, .tryGet 0, .tryGet 0, .tryGet 0] → p ≠ 0 := by
    intro p hp
    simp only [List.mem_cons, QueueOp.tryPut.injEq, List.not_mem_nil, or_false, reduceCtorEq] at hp
    rcases hp with rfl | rfl
    · decide
    · decide
  have hfits : ∀ p ∈ takenPointers []
      [.tryPut 0x0804b008, .tryPut 0x0804c010, .tryGet 0, .tryGet 0, .tryGet 0], FitsInt p := by
    intro p hp
    change p ∈ [0x0804b008, 0x0804c010] at hp
    rcases List.mem_cons.mp hp with rfl | hp
    · exact Or.inl (by decide)
    · rw [List.mem_singleton.mp hp]
      exact Or.inl (by decide)
  have hcalls : queueCalls (qInit (Vector.replicate _ 0))
      [.tryPut 0x0804b008, .tryPut 0x0804c010, .tryGet 0, .tryGet 0, .tryGet 0] =
      some [.tryPut 0x0804b008 1, .tryPut 0x0804c010 1, .tryGet 0x0804b008, .tryGet 0x0804c010,
        .tryGet 0] := by decide
  obtain ⟨calls, hsome, hiff⟩ := pointers_survive_iff (Vector.replicate _ 0) _ hops
  rw [hcalls, Option.some.injEq] at hsome
  rw [← hsome] at hiff
  exact ⟨hcalls, hiff.mpr hfits⟩

theorem pointer_corrupted :
    ¬∀ (base : Vector (BitVec 32) maxQSize) (ops : List QueueOp) (calls : List QueueCall),
      (∀ p, .tryPut p ∈ ops → p ≠ 0) → queueCalls (qInit base) ops = some calls →
      FaithfulCalls [] calls := by
  intro h
  have hops : ∀ p, QueueOp.tryPut p ∈ [.tryPut pieHeapPointer, .tryGet 0] → p ≠ 0 := by
    intro p hp
    simp only [List.mem_cons, QueueOp.tryPut.injEq, List.not_mem_nil, or_false, reduceCtorEq] at hp
    rw [hp]
    decide
  obtain ⟨calls, hcalls, hiff⟩ :=
    queueCalls_faithful_iff _ (carries_init (Vector.replicate _ 0)) (by simp) hops
  have hfits := hiff.mp (h _ _ calls hops hcalls) pieHeapPointer (by simp [takenPointers])
  exact absurd hfits (by rw [FitsInt]; decide)

end EthoSlip
