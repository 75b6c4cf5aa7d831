import EthoSlip.Model.Pbuf
import EthoSlip.Model.Relay

/-!
# The pool of packet buffers

`core/pbuf.c` of the PC stack on the pool that `core/memp.c` keeps for `PBUF_POOL`: every element
of the pool is either free, and then in the list of its free elements, or a `struct pbuf` with its
memory behind it. An access to a free element is undefined, and a failing assertion ends the
program. The program is built with `MEM_ALIGNMENT` 1, reference counts of a `u8_t` and without
`LWIP_NOASSERT`, so that `LWIP_ERROR` is an assertion too and its `return` is never reached.
-/

namespace EthoSlip

/-- `TCP_MSS + 40 + PBUF_LINK_ENCAPSULATION_HLEN + PBUF_LINK_HLEN` -/
def pbufPoolBufsize : Nat := 590

inductive PbufLayer where
  | transport
  | ip
  | link
  | rawTx
  | raw
  deriving DecidableEq, Repr

def PbufLayer.offset : PbufLayer → UInt16
  | .transport => 74
  | .ip => 54
  | .link => 14
  | .rawTx => 0
  | .raw => 0

/-- `payload` is an offset into the memory behind the `struct`. -/
structure PbufCell (n : Nat) where
  next : Option (Fin n)
  payload : Nat
  totLen : UInt16
  len : UInt16
  ref : UInt8
  deriving DecidableEq

/-- The elements of the pool, and `tab`, the list of the free ones. The flag asks
`sys_check_timeouts` to give back what TCP has received out of sequence. -/
structure PbufPool (n : Nat) where
  cell : Fin n → Option (PbufCell n)
  memory : Fin n → Vector Byte pbufPoolBufsize
  tab : List (Fin n)
  pbufFreeOoseqPending : UInt8

namespace PbufPool

variable {n : Nat}

/-- `memp_init_pool` puts one element after the other in front of the list. -/
def init (memory : Fin n → Vector Byte pbufPoolBufsize) : PbufPool n :=
  ⟨fun _ => none, memory, (List.finRange n).reverse, 0⟩

def set (m : PbufPool n) (p : Fin n) (c : PbufCell n) : PbufPool n :=
  { m with cell := Function.update m.cell p (some c) }

/-- `memcpy` to the memory of `p`. -/
def memcpy (m : PbufPool n) (p : Fin n) (i : Nat) (src : Buf) (k : Nat) : Option (PbufPool n) :=
  match h : Buf.memcpy (m.memory p).toList i src k with
  | none => none
  | some bytes =>
    some { m with
      memory := Function.update m.memory p ⟨bytes.toArray, by
        rw [List.size_toArray, Buf.length_memcpy h, Vector.length_toList]⟩ }

/-- `memp_malloc(MEMP_PBUF_POOL)` -/
def mempMalloc (m : PbufPool n) : Option (Fin n × PbufPool n) :=
  match m.tab with
  | [] => none
  | q :: tab => some (q, { m with tab := tab })

/-- `memp_free(MEMP_PBUF_POOL, p)` -/
def mempFree (m : PbufPool n) (p : Fin n) : PbufPool n :=
  { m with cell := Function.update m.cell p none, tab := p :: m.tab }

/-- The `while` of `pbuf_free`. -/
def pbufFreeLoop : Nat → PbufPool n → Option (Fin n) → UInt8 → Option (PbufPool n × UInt8)
  | _, m, none, count => some (m, count)
  | 0, _, some _, _ => none
  | fuel + 1, m, some p, count => do
    let c ← m.cell p
    if c.ref = 0 then none
    else
      let ref := c.ref - 1
      if ref = 0 then pbufFreeLoop fuel (m.mempFree p) c.next (count + 1)
      else return (m.set p { c with ref := ref }, count)

/-- `pbuf_free`, with the number of elements that it gives back as a `u8_t`. -/
def pbufFree (m : PbufPool n) (p : Fin n) : Option (PbufPool n × UInt8) :=
  pbufFreeLoop n m (some p) 0

/-- `PBUF_POOL_IS_EMPTY()` of a build with `NO_SYS` -/
def pbufPoolIsEmpty (m : PbufPool n) : PbufPool n := { m with pbufFreeOoseqPending := 1 }

/-- The `do` of `pbuf_alloc`. -/
def pbufAllocLoop : Nat → PbufPool n → (p last : Option (Fin n)) → (remLen offset : UInt16) →
    Option (PbufPool n × Option (Fin n))
  | 0, _, _, _, _, _ => none
  | fuel + 1, m, p, last, remLen, offset =>
    match m.mempMalloc with
    | none =>
      let m := m.pbufPoolIsEmpty
      match p with
      | none => some (m, none)
      | some p => (pbufFree m p).map (fun r => (r.1, none))
    | some (q, m) => do
      let room := UInt16.ofNat pbufPoolBufsize - offset
      let qlen := if remLen < room then remLen else room
      let m := m.set q ⟨none, offset.toNat, remLen, qlen, 1⟩
      let (m, p) ←
        match p with
        | none => some (m, some q)
        | some p => do
          let last ← last
          let c ← m.cell last
          some (m.set last { c with next := some q }, some p)
      if remLen - qlen = 0 then return (m, p)
      else pbufAllocLoop fuel m p (some q) (remLen - qlen) 0

/-- `pbuf_alloc(layer, length, PBUF_POOL)` -/
def pbufAlloc (m : PbufPool n) (layer : PbufLayer) (length : UInt16) :
    Option (PbufPool n × Option (Fin n)) :=
  pbufAllocLoop (m.tab.length + 1) m none none length layer.offset

def pbufRef (m : PbufPool n) (p : Fin n) : Option (PbufPool n) := do
  let c ← m.cell p
  if c.ref + 1 = 0 then none else return m.set p { c with ref := c.ref + 1 }

/-- The `for` of `pbuf_cat` and what follows it. -/
def pbufCatLoop (t : Fin n) : Nat → PbufPool n → Fin n → Option (PbufPool n)
  | 0, _, _ => none
  | fuel + 1, m, p => do
    let c ← m.cell p
    let tail ← m.cell t
    match c.next with
    | some q => pbufCatLoop t fuel (m.set p { c with totLen := c.totLen + tail.totLen }) q
    | none =>
      if c.totLen ≠ c.len then none
      else return m.set p { c with totLen := c.totLen + tail.totLen, next := some t }

def pbufCat (m : PbufPool n) (h t : Fin n) : Option (PbufPool n) := pbufCatLoop t n m h

def pbufChain (m : PbufPool n) (h t : Fin n) : Option (PbufPool n) := do
  let m ← m.pbufCat h t
  m.pbufRef t

/-- `pbuf_dechain`; the lengths are compared as `int`s. -/
def pbufDechain (m : PbufPool n) (p : Fin n) : Option (PbufPool n × Option (Fin n)) := do
  let c ← m.cell p
  match c.next with
  | none => if c.totLen ≠ c.len then none else return (m, none)
  | some q =>
    let tail ← m.cell q
    if (tail.totLen.toNat : Int) ≠ (c.totLen.toNat : Int) - c.len.toNat then none
    else
      let m := m.set q { tail with totLen := c.totLen - c.len }
      let m := m.set p { c with next := none, totLen := c.len }
      let (m, tailGone) ← m.pbufFree q
      return (m, if 0 < tailGone then none else some q)

/-- The `while` of `pbuf_realloc`, with the last `pbuf` that is kept and its length. -/
def pbufReallocLoop (shrink : UInt16) : Nat → PbufPool n → Fin n → UInt16 →
    Option (PbufPool n × Fin n × UInt16)
  | 0, _, _, _ => none
  | fuel + 1, m, q, remLen => do
    let c ← m.cell q
    if c.len < remLen then
      let m := m.set q { c with totLen := c.totLen - shrink }
      let q ← c.next
      pbufReallocLoop shrink fuel m q (remLen - c.len)
    else return (m, q, remLen)

def pbufRealloc (m : PbufPool n) (p : Fin n) (newLen : UInt16) : Option (PbufPool n) := do
  let c ← m.cell p
  if c.totLen ≤ newLen then return m
  else
    let (m, q, remLen) ← pbufReallocLoop (c.totLen - newLen) n m p newLen
    let last ← m.cell q
    let last := { last with len := remLen, totLen := remLen }
    let m := m.set q last
    match last.next with
    | none => return m
    | some r => do
      let (m, _) ← m.pbufFree r
      return m.set q { last with next := none }

/-- `pbuf_remove_header`, with its result; a header that is longer than the `pbuf` is an assertion
that fails. -/
def pbufRemoveHeader (m : PbufPool n) (p : Fin n) (decrement : Nat) :
    Option (PbufPool n × UInt8) :=
  if 0xffff < decrement then some (m, 1)
  else if decrement = 0 then some (m, 0)
  else do
    let magnitude := UInt16.ofNat decrement
    let c ← m.cell p
    if c.len < magnitude then none
    else
      return (m.set p { c with
        payload := c.payload + decrement
        len := c.len - magnitude
        totLen := c.totLen - magnitude }, 0)

def pbufAddHeader (m : PbufPool n) (p : Fin n) (increment : Nat) :
    Option (PbufPool n × UInt8) :=
  if 0xffff < increment then some (m, 1)
  else if increment = 0 then some (m, 0)
  else do
    let magnitude := UInt16.ofNat increment
    let c ← m.cell p
    if magnitude + c.totLen < magnitude then return (m, 1)
    else if c.payload < increment then return (m, 1)
    else
      return (m.set p { c with
        payload := c.payload - increment
        len := c.len + magnitude
        totLen := c.totLen + magnitude }, 0)

/-- The `while` of `pbuf_free_header`, with the new head. -/
def pbufFreeHeaderLoop : Nat → PbufPool n → Option (Fin n) → UInt16 →
    Option (PbufPool n × Option (Fin n))
  | _, m, none, _ => some (m, none)
  | 0, _, some _, _ => none
  | fuel + 1, m, some p, freeLeft =>
    if freeLeft = 0 then some (m, some p)
    else do
      let c ← m.cell p
      if c.len ≤ freeLeft then
        let (m, _) ← (m.set p { c with next := none }).pbufFree p
        pbufFreeHeaderLoop fuel m c.next (freeLeft - c.len)
      else
        let (m, _) ← m.pbufRemoveHeader p freeLeft.toNat
        return (m, some p)

def pbufFreeHeader (m : PbufPool n) (q : Fin n) (size : UInt16) :
    Option (PbufPool n × Option (Fin n)) :=
  pbufFreeHeaderLoop (n + 1) m (some q) size

/-- The `for` of `pbuf_take`. -/
def pbufTakeLoop (dataptr : Buf) : Nat → PbufPool n → Option (Fin n) →
    (totalCopyLen copiedTotal : Nat) → Option (PbufPool n)
  | _, m, _, 0, _ => some m
  | 0, _, _, _ + 1, _ => none
  | _ + 1, _, none, _ + 1, _ => none
  | fuel + 1, m, some p, totalCopyLen + 1, copiedTotal => do
    let c ← m.cell p
    let bufCopyLen := min (totalCopyLen + 1) c.len.toNat
    let m ← m.memcpy p c.payload (dataptr.drop copiedTotal) bufCopyLen
    pbufTakeLoop dataptr fuel m c.next (totalCopyLen + 1 - bufCopyLen) (copiedTotal + bufCopyLen)

/-- `pbuf_take`, with its result; data that are longer than the chain are an assertion that fails. -/
def pbufTake (m : PbufPool n) (buf : Fin n) (dataptr : Buf) (len : UInt16) :
    Option (PbufPool n × Int) := do
  let c ← m.cell buf
  if c.totLen < len then none
  else
    let m ← pbufTakeLoop dataptr n m (some buf) len.toNat 0
    return (m, errOk)

/-- A `pbuf` with its payload. -/
def toPbuf (m : PbufPool n) (p : Fin n) : Option Pbuf := do
  let c ← m.cell p
  if h : c.payload + c.len.toNat ≤ pbufPoolBufsize then
    return ⟨c.totLen, c.len, ((m.memory p).toList.drop c.payload).take c.len.toNat, by
      rw [List.length_take, List.length_drop, Vector.length_toList]
      omega⟩
  else none

/-- The chain that begins at an address, as a function that walks through it reads it. -/
def toChain (m : PbufPool n) : Nat → Option (Fin n) → Option (List Pbuf)
  | _, none => some []
  | 0, some _ => none
  | fuel + 1, some p => do
    let c ← m.cell p
    let buf ← m.toPbuf p
    let next ← toChain m fuel c.next
    return buf :: next

end PbufPool

end EthoSlip
