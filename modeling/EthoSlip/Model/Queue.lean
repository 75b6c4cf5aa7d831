import Mathlib.Tactic
import Mathlib.Data.List.Basic

/-!
# The receive queue

`queue.c`: a circular buffer of `int`, and the two functions that put pointers through it. Pointers
have 64 bits and `int` has 32. Functions that take the queue by value do not return it. At the end
stand the calls that a program makes one after the other, with their results.
-/

namespace EthoSlip

abbrev maxQSize : Nat := 100

/-- `SqQueue`, with the array that `base` points to. -/
structure SqQueue where
  base : Vector (BitVec 32) maxQSize
  front : Int
  rear : Int
  deriving DecidableEq

/-- `Q_Init`, when `malloc` succeeds. -/
def qInit (base : Vector (BitVec 32) maxQSize) : SqQueue := ⟨base, 0, 0⟩

namespace SqQueue

variable (q : SqQueue)

/-- `(Q->rear + 1) % MAX_QSIZE == Q->front`. -/
def full : Bool := (q.rear + 1).tmod maxQSize = q.front

/-- `Q->front == Q->rear`. -/
def empty : Bool := q.front = q.rear

/-- `Q->base[Q->rear] = e`. -/
def storeRear (e : BitVec 32) : Option SqQueue :=
  if h : 0 ≤ q.rear ∧ q.rear < maxQSize then
    some { q with base := q.base.set q.rear.toNat e (by omega) }
  else none

/-- `Q->base[Q->front]`. -/
def loadFront : Option (BitVec 32) :=
  if h : 0 ≤ q.front ∧ q.front < maxQSize then some (q.base.get ⟨q.front.toNat, by omega⟩) else none

/-- `Q->rear = (Q->rear + 1) % MAX_QSIZE`. -/
def advanceRear : SqQueue := { q with rear := (q.rear + 1).tmod maxQSize }

/-- `Q->front = (Q->front + 1) % MAX_QSIZE`. -/
def advanceFront : SqQueue := { q with front := (q.front + 1).tmod maxQSize }

end SqQueue

def qClear (q : SqQueue) : SqQueue := { q with front := 0, rear := 0 }

def qEmpty (q : SqQueue) : Int := if q.empty then 1 else -1

def qLength (q : SqQueue) : Int := (q.rear - q.front + maxQSize).tmod maxQSize

/-- The elements from the front to the rear. -/
def SqQueue.contents (q : SqQueue) : List (BitVec 32) :=
  (List.range (qLength q).toNat).map (fun k =>
    q.base.get ⟨(q.front.toNat + k) % maxQSize, Nat.mod_lt _ (by decide)⟩)

/-- `e` is the object that the second argument points to. -/
def qGetHead (q : SqQueue) (e : BitVec 32) : Option (BitVec 32 × Int) :=
  if q.empty then some (e, -1)
  else q.loadFront.map (fun e => (e, 1))

def qPut (q : SqQueue) (e : BitVec 32) : Option (SqQueue × Int) :=
  if q.full then some (q, -1)
  else (q.storeRear e).map (fun q => (q.advanceRear, 1))

/-- `e` as for `Q_GetHead`. -/
def qPoll (q : SqQueue) (e : BitVec 32) : Option (SqQueue × BitVec 32 × Int) :=
  if q.empty then some (q, e, -1)
  else q.loadFront.map (fun e => (q.advanceFront, e, 1))

/-- A pointer, with its casts to `int` and back. -/
abbrev Handle := BitVec 64

def Handle.toInt (p : Handle) : BitVec 32 := p.setWidth 32

def Handle.ofInt (e : BitVec 32) : Handle := e.signExtend 64

def queueTryPut (q : SqQueue) (p : Handle) : Option (SqQueue × Int) :=
  (qPut q p.toInt).map (fun r => (r.1, if r.2 = 1 then 1 else 0))

/-- `e` is what the local variable holds before it is assigned. -/
def queueTryGet (q : SqQueue) (e : BitVec 32) : Option (SqQueue × Handle) :=
  (qPoll q e).map (fun r => (r.1, if r.2.2 = 1 then Handle.ofInt r.2.1 else 0))

/-- A call to be made; `e` is what the local variable of `queue_try_get` holds. -/
inductive QueueOp where
  | tryPut (p : Handle)
  | tryGet (e : BitVec 32)
  deriving DecidableEq, Repr

/-- A call with its result. -/
inductive QueueCall where
  | tryPut (p : Handle) (result : Int)
  | tryGet (result : Handle)
  deriving DecidableEq, Repr

def queueCall (q : SqQueue) : QueueOp → Option (SqQueue × QueueCall)
  | .tryPut p => (queueTryPut q p).map (fun r => (r.1, .tryPut p r.2))
  | .tryGet e => (queueTryGet q e).map (fun r => (r.1, .tryGet r.2))

def queueCalls : SqQueue → List QueueOp → Option (List QueueCall)
  | _, [] => some []
  | q, op :: ops => do
    let (q, call) ← queueCall q op
    let calls ← queueCalls q ops
    return call :: calls

/-- A call to be made; `e` is the argument of `Q_Put`, and the object that `Q_Poll` and `Q_GetHead`
may overwrite. -/
inductive QOp where
  | put (e : BitVec 32)
  | poll (e : BitVec 32)
  | getHead (e : BitVec 32)
  | length
  | empty
  | clear
  deriving DecidableEq, Repr

/-- The result of a call, with what `*e` holds after it where there is one. -/
inductive QResult where
  | returned (result : Int)
  | returnedWith (result : Int) (e : BitVec 32)
  | void
  deriving DecidableEq, Repr

def queueStep (q : SqQueue) : QOp → Option (SqQueue × QResult)
  | .put e => (qPut q e).map (fun r => (r.1, .returned r.2))
  | .poll e => (qPoll q e).map (fun r => (r.1, .returnedWith r.2.2 r.2.1))
  | .getHead e => (qGetHead q e).map (fun r => (q, .returnedWith r.2 r.1))
  | .length => some (q, .returned (qLength q))
  | .empty => some (q, .returned (qEmpty q))
  | .clear => some (qClear q, .void)

end EthoSlip
