import Mathlib.Data.Multiset.AddSub
import EthoSlip.Model.PbufHeap

/-!
# The clients of the pool

The calls to `pbuf.c`, and the references that the callers hold between them: a call that returns a
new `pbuf` or counts a reference adds one, a call that takes over or gives back a reference removes
one.
-/

namespace EthoSlip

inductive PbufOp (n : Nat) where
  | alloc (layer : PbufLayer) (length : UInt16)
  | ref (p : Fin n)
  | free (p : Fin n)
  | cat (h t : Fin n)
  | chain (h t : Fin n)
  | dechain (p : Fin n)
  | realloc (p : Fin n) (newLen : UInt16)
  | removeHeader (p : Fin n) (decrement : Nat)
  | addHeader (p : Fin n) (increment : Nat)
  | freeHeader (p : Fin n) (size : UInt16)
  | take (p : Fin n) (dataptr : Buf) (len : UInt16)
  | copyPartial (p : Fin n) (dataptr : Buf) (len offset : UInt16)
  deriving DecidableEq

/-- What a call returns. -/
inductive PbufReply (n : Nat) where
  | void
  | pbuf (p : Option (Fin n))
  | count (k : UInt8)
  | err (e : Int)
  | bytes (dataptr : Buf) (copied : UInt16)
  deriving DecidableEq

structure PbufClients (n : Nat) where
  pool : PbufPool n
  held : Multiset (Fin n)

namespace PbufClients

variable {n : Nat}

def init (memory : Fin n → Vector Byte pbufPoolBufsize) : PbufClients n := ⟨PbufPool.init memory, 0⟩

/-- A reference that is returned, unless it is `NULL`. -/
def hold (held : Multiset (Fin n)) (p : Option (Fin n)) : Multiset (Fin n) :=
  p.elim held (· ::ₘ held)

def call (s : PbufClients n) : PbufOp n → Option (PbufClients n × PbufReply n)
  | .alloc layer length => do
    let (pool, p) ← s.pool.pbufAlloc layer length
    return (⟨pool, hold s.held p⟩, .pbuf p)
  | .ref p => do
    let pool ← s.pool.pbufRef p
    return (⟨pool, p ::ₘ s.held⟩, .void)
  | .free p => do
    let (pool, count) ← s.pool.pbufFree p
    return (⟨pool, s.held.erase p⟩, .count count)
  | .cat h t => do
    let pool ← s.pool.pbufCat h t
    return (⟨pool, s.held.erase t⟩, .void)
  | .chain h t => do
    let pool ← s.pool.pbufChain h t
    return (⟨pool, s.held⟩, .void)
  | .dechain p => do
    let (pool, rest) ← s.pool.pbufDechain p
    return (⟨pool, s.held⟩, .pbuf rest)
  | .realloc p newLen => do
    let pool ← s.pool.pbufRealloc p newLen
    return (⟨pool, s.held⟩, .void)
  | .removeHeader p decrement => do
    let (pool, failed) ← s.pool.pbufRemoveHeader p decrement
    return (⟨pool, s.held⟩, .count failed)
  | .addHeader p increment => do
    let (pool, failed) ← s.pool.pbufAddHeader p increment
    return (⟨pool, s.held⟩, .count failed)
  | .freeHeader p size => do
    let (pool, rest) ← s.pool.pbufFreeHeader p size
    return (⟨pool, hold (s.held.erase p) rest⟩, .pbuf rest)
  | .take p dataptr len => do
    let (pool, err) ← s.pool.pbufTake p dataptr len
    return (⟨pool, s.held⟩, .err err)
  | .copyPartial p dataptr len offset => do
    let chain ← s.pool.toChain n (some p)
    let (dataptr, copied) ← pbufCopyPartial chain dataptr len offset
    return (s, .bytes dataptr copied)

def step (s : PbufClients n) (op : PbufOp n) : Option (PbufClients n) :=
  (s.call op).map Prod.fst

end PbufClients

end EthoSlip
