import EthoSlip.Model.HandOver
import EthoSlip.Model.PbufHeap

/-!
# The free list under two threads

`memp_malloc` and `memp_free` on the pool of `pbuf`s, access by access. `SYS_LIGHTWEIGHT_PROT` is 0,
so that nothing keeps `slip_out_task_proc`, which allocates, from running between two accesses of the
main loop, which allocates and frees. A free element is linked by the word that is the `next` of the
`pbuf` when the element is in use.
-/

namespace EthoSlip

/-- Where a thread is in `memp_malloc` or `memp_free`, with what it has loaded. -/
inductive MempPoint (n : Nat) where
  | idle
  | mallocLoaded (memp : Option (Fin n))
  | mallocNext (memp : Fin n) (next : Option (Fin n))
  | freeLoaded (memp : Fin n) (tab : Option (Fin n))
  | freeStored (memp : Fin n)
  deriving DecidableEq

structure MempThreads (n : Nat) where
  tab : Option (Fin n)
  next : Fin n → Option (Fin n)
  point : Thread → MempPoint n
  owned : Thread → List (Fin n)

/-- A thread begins a call, goes on to its next access, or writes to an element that it owns. -/
inductive MempStep (n : Nat) where
  | malloc (t : Thread)
  | free (t : Thread) (p : Fin n)
  | write (t : Thread) (p : Fin n) (next : Option (Fin n))
  | advance (t : Thread)
  deriving DecidableEq

def MempStep.thread {n : Nat} : MempStep n → Thread
  | .malloc t => t
  | .free t _ => t
  | .write t _ _ => t
  | .advance t => t

/-- What a step completes. -/
inductive MempReply (n : Nat) where
  | nothing
  | got (memp : Option (Fin n))
  | freed (memp : Fin n)
  deriving DecidableEq

namespace MempThreads

variable {n : Nat}

/-- `memp_init_pool` -/
def init (n : Nat) : MempThreads n :=
  (List.finRange n).foldl
    (fun s memp => { s with next := Function.update s.next memp s.tab, tab := some memp })
    ⟨none, fun _ => none, fun _ => .idle, fun _ => []⟩

def setPoint (s : MempThreads n) (t : Thread) (point : MempPoint n) : MempThreads n :=
  { s with point := Function.update s.point t point }

def setOwned (s : MempThreads n) (t : Thread) (owned : List (Fin n)) : MempThreads n :=
  { s with owned := Function.update s.owned t owned }

/-- The next access of a call. -/
def advance (s : MempThreads n) (t : Thread) : Option (MempThreads n × MempReply n) :=
  match s.point t with
  | .idle => none
  | .mallocLoaded none => some (s.setPoint t .idle, .got none)
  | .mallocLoaded (some memp) => some (s.setPoint t (.mallocNext memp (s.next memp)), .nothing)
  | .mallocNext memp next =>
    some ({ (s.setPoint t .idle).setOwned t (memp :: s.owned t) with tab := next }, .got (some memp))
  | .freeLoaded memp tab =>
    some ({ s.setPoint t (.freeStored memp) with next := Function.update s.next memp tab }, .nothing)
  | .freeStored memp => some ({ s.setPoint t .idle with tab := some memp }, .freed memp)

def step (s : MempThreads n) : MempStep n → Option (MempThreads n × MempReply n)
  | .malloc t =>
    if s.point t = .idle then some (s.setPoint t (.mallocLoaded s.tab), .nothing) else none
  | .free t p =>
    if s.point t = .idle ∧ p ∈ s.owned t then
      some ((s.setPoint t (.freeLoaded p s.tab)).setOwned t ((s.owned t).erase p), .nothing)
    else none
  | .write t p next =>
    if s.point t = .idle ∧ p ∈ s.owned t then
      some ({ s with next := Function.update s.next p next }, .nothing)
    else none
  | .advance t => s.advance t

end MempThreads

end EthoSlip
