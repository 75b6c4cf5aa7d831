import EthoSlip.Model.EthoslipIf
import EthoSlip.Model.PacketStore

/-!
# Packets through the PC stack

`slip_out_task_proc` puts the frames that pass the check into the pool, lwIP works on the packets
that it owns, and the interface takes those that it sends from the pool to the line. The calls of
the two threads come in any order, but each of them is one step here: nothing in the program sees to
it that a call of one thread does not begin while the other thread is in `pbuf_alloc` or `pbuf_free`.
-/

namespace EthoSlip

inductive StackOp (n : Nat) where
  | receive (slipOutBuffer : Buf) (totalLen : UInt16)
  | fill
  | call (op : PbufOp n)
  | output (p : Fin n)
  deriving DecidableEq

/-- `filling` is the `p` of `slip_out_task_proc` before its `pbuf_take`, with the frame. -/
structure PcStack (n : Nat) where
  clients : PbufClients n
  filling : Option (Fin n × Buf × UInt16)
  netif : EthoslipIf

namespace PcStack

variable {n : Nat}

def init (memory : Fin n → Vector Byte pbufPoolBufsize) (lwipOutBuffer : Vector Byte pcBufSize) :
    PcStack n :=
  ⟨.init memory, none, .init lwipOutBuffer⟩

/-- The `pbuf_alloc` of `slip_out_task_proc` for a frame that has passed the check. -/
def slipOutAlloc (s : PcStack n) (slipOutBuffer : Buf) (totalLen : UInt16) :
    Option (PcStack n × Option (Fin n)) := do
  let (pool, p) ← s.clients.pool.pbufAlloc .raw totalLen
  return ({ s with
    clients := ⟨pool, PbufClients.hold s.clients.held p⟩
    filling := p.map (fun p => (p, slipOutBuffer, totalLen)) }, p)

/-- Its `pbuf_take`; the result is not looked at, and `p` goes to the queue. -/
def slipOutTake (s : PcStack n) (p : Fin n) (slipOutBuffer : Buf) (totalLen : UInt16) :
    Option (PcStack n) := do
  let (pool, _) ← s.clients.pool.pbufTake p slipOutBuffer totalLen
  return { s with
    clients := ⟨pool, s.clients.held⟩
    filling := none }

def step (s : PcStack n) : StackOp n → Option (PcStack n × PbufReply n)
  | .receive slipOutBuffer totalLen =>
    match s.filling with
    | some _ => none
    | none => do
      let (s, p) ← s.slipOutAlloc slipOutBuffer totalLen
      return (s, .pbuf p)
  | .fill =>
    match s.filling with
    | none => none
    | some (p, slipOutBuffer, totalLen) => do
      let s ← s.slipOutTake p slipOutBuffer totalLen
      return (s, .pbuf (some p))
  | .call op => do
    let (clients, reply) ← s.clients.call op
    return ({ s with clients := clients }, reply)
  | .output p => do
    let chain ← s.clients.pool.toChain n (some p)
    let netif ← ethoslipifLowLevelOutput s.netif chain
    return ({ s with netif := netif }, .void)

end PcStack

/-! ### What it is for -/

/-- The packets that a call is about. -/
def PbufOp.names {n : Nat} : PbufOp n → List (Fin n)
  | .alloc _ _ => []
  | .ref p => [p]
  | .free p => [p]
  | .cat h t => [h, t]
  | .chain h t => [h, t]
  | .dechain p => [p]
  | .realloc p _ => [p]
  | .removeHeader p _ => [p]
  | .addHeader p _ => [p]
  | .freeHeader p _ => [p]
  | .take p _ _ => [p]
  | .copyPartial p _ _ _ => [p]

/-- The thread works on one frame after the other, and lwIP knows a packet once it is filled. A
packet that is sent has room for its trailer in the buffer of the interface. -/
def StackOp.Admitted {n : Nat} (σ : PacketStore n) (filling : Option (Fin n)) : StackOp n → Prop
  | .receive slipOutBuffer totalLen => filling = none ∧ totalLen.toNat ≤ slipOutBuffer.length
  | .fill => filling.isSome
  | .call op => σ.Admits op ∧ ∀ p ∈ op.names, filling ≠ some p
  | .output p => (σ p).isSome ∧ σ.lengthAt p + 2 ≤ pcBufSize ∧ filling ≠ some p

instance StackOp.decidableAdmitted {n : Nat} (σ : PacketStore n) (filling : Option (Fin n)) :
    (op : StackOp n) → Decidable (op.Admitted σ filling)
  | .receive _ _ => inferInstanceAs (Decidable (_ ∧ _))
  | .fill => inferInstanceAs (Decidable (_ = _))
  | .call op => inferInstanceAs (Decidable (σ.Admits op ∧ ∀ p ∈ op.names, filling ≠ some p))
  | .output _ => inferInstanceAs (Decidable (_ ∧ _ ∧ _))

/-- The packets of the stack, the one that the thread is filling with its frame, and what has been
sent. -/
structure PacketStack (n : Nat) where
  store : PacketStore n
  filling : Option (Fin n × List Byte)
  sent : List (List Byte)

namespace PacketStack

variable {n : Nat}

def empty : PacketStack n := ⟨fun _ => none, none, []⟩

end PacketStack

end EthoSlip
