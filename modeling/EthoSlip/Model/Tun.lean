import EthoSlip.Lib.Run
import EthoSlip.Model.Pbuf

/-!
# The UDP tunnel

`tun.c`: a packet is combined with the key on its way through the tunnel, in the chain of `pbuf`s
that holds it. The two packet counters are only printed and are left out.
-/

namespace EthoSlip
open Lib

def tunBufSize : Nat := 2000

/-- `(unsigned char)(i*i + 128)` -/
def keyByte (i : Nat) : Byte := UInt8.ofNat (i * i + 128)

def keyInit (key : Buf) : Option Buf :=
  run (fun key i => Buf.store key i (keyByte i)) key (List.range tunBufSize)

section Xor

/-! The key index is an `int` in `key_xor` and a `u16_t` in `sbuf_key_xor`. -/

variable {ι : Type} (succ : ι → ι) (keyAt : ι → Option Byte)

/-- `buff[k] = buff[k] ^ key[j++]`, for `left` values of `k`. -/
def xorLoop : (left k : Nat) → ι → Buf → Option (Buf × ι)
  | 0, _, j, buff => some (buff, j)
  | left + 1, k, j, buff => do
    let c ← buff.load k
    let c' ← keyAt j
    let buff ← buff.store k (c ^^^ c')
    xorLoop left (k + 1) (succ j) buff

variable {succ keyAt}

lemma length_xorLoop {left k : Nat} {j j' : ι} {buff buff' : Buf}
    (h : xorLoop succ keyAt left k j buff = some (buff', j')) : buff'.length = buff.length := by
  induction left generalizing k j buff with
  | zero =>
    simp only [xorLoop, Option.some.injEq, Prod.mk.injEq] at h
    rw [h.1]
  | succ left ih =>
    simp only [xorLoop, Option.bind_eq_bind, Option.bind_eq_some_iff] at h
    obtain ⟨c, -, c', -, stored, hstored, h⟩ := h
    rw [ih h, Buf.length_store hstored]

end Xor

/-- `key[j]` -/
def loadInt (key : Buf) (j : Int) : Option Byte := if 0 ≤ j then key.load j.toNat else none

def keyXor (buff : Buf) (len : Int) (key : Buf) : Option Buf :=
  (xorLoop (· + 1) (loadInt key) len.toNat 0 (tunBufSize - len) buff).map Prod.fst

/-- `key[j]` -/
def loadU16 (key : Buf) (j : UInt16) : Option Byte := key.load j.toNat

/-- The inner loop of `sbuf_key_xor`. -/
def xorSegment (key : Buf) (bufCopyLen j : UInt16) (p : Pbuf) : Option (Pbuf × UInt16) :=
  match h : xorLoop (· + 1) (loadU16 key) bufCopyLen.toNat 0 j p.payload with
  | none => none
  | some (buff, j) => some (p.setPayload buff (length_xorLoop h), j)

lemma xorSegment_eq_some {key buff : Buf} {n j j' : UInt16} {p : Pbuf}
    (h : xorLoop (· + 1) (loadU16 key) n.toNat 0 j p.payload = some (buff, j')) :
    ∃ q, xorSegment key n j p = some (q, j') ∧ q.totLen = p.totLen ∧ q.len = p.len ∧
      q.payload = buff := by
  unfold xorSegment
  split
  · rename_i hnone
    rw [h] at hnone
    cases hnone
  · rename_i buff' j'' hsome
    rw [h, Option.some.injEq, Prod.mk.injEq] at hsome
    obtain ⟨rfl, rfl⟩ := hsome
    exact ⟨_, rfl, rfl, rfl, rfl⟩

lemma xorSegment_eq_none {key : Buf} {n j : UInt16} {p : Pbuf}
    (h : xorLoop (· + 1) (loadU16 key) n.toNat 0 j p.payload = none) :
    xorSegment key n j p = none := by
  unfold xorSegment
  split
  · rfl
  · rename_i buff j' hsome
    rw [h] at hsome
    cases hsome

/-- `total_len` is counted up once for each byte of a segment. -/
def sbufLoop (key : Buf) : List Pbuf → (totalLen len j : UInt16) → Option (List Pbuf × UInt16)
  | [], totalLen, _, _ => some ([], totalLen)
  | p :: next, totalLen, len, j =>
    if len = 0 then some (p :: next, totalLen)
    else do
      let bufCopyLen := if len < p.len then len else p.len
      let (p, j) ← xorSegment key bufCopyLen j p
      let (next, totalLen) ← sbufLoop key next (totalLen + bufCopyLen) (len - bufCopyLen) j
      return (p :: next, totalLen)

def sbufKeyXor (buf : List Pbuf) (key : Buf) : Option (List Pbuf × UInt16) :=
  match buf with
  | [] => none
  | p :: next => sbufLoop key (p :: next) 0 p.totLen (UInt16.ofNat tunBufSize - p.totLen)

/-- What is left of a packet when a callback of the tunnel returns. -/
inductive TunEffect where
  | lost
  /-- `low_level_output(&xnetif[1], p)` -/
  | lowLevelOutput (p : List Pbuf)
  /-- `udp_sendto_if(udp_sock, p, ...)` -/
  | udpSendto (p : List Pbuf)
  deriving DecidableEq

/-- The hardware address of a `struct netif`, an array of `NETIF_MAX_HWADDR_LEN` bytes. -/
structure NetifHwaddr where
  hwaddr : Vector Byte 6
  hwaddrLen : Byte
  hwaddrLen_le : hwaddrLen.toNat ≤ 6

/-- `memcpy(((uint8_t *)p->payload)+6, hwaddr, hwaddr_len)` -/
def writeHwaddr (netif : NetifHwaddr) (p : Pbuf) : Option Pbuf :=
  match h : p.payload.memcpy 6 netif.hwaddr.toList netif.hwaddrLen.toNat with
  | none => none
  | some payload => some (p.setPayload payload (Buf.length_memcpy h))

/-- `netif` is `xnetif[1]`. -/
def udpInputCb (skb : SkbCounters) (netif : NetifHwaddr) (key : Buf) (p : List Pbuf) :
    Option TunEffect :=
  if skb.Short then some .lost
  else do
    let (p, _) ← sbufKeyXor p key
    match p with
    | [] => none
    | p :: next =>
      if 12 ≤ p.len then
        let p ← writeHwaddr netif p
        return .lowLevelOutput (p :: next)
      else return .lowLevelOutput (p :: next)

def tunInput (skb : SkbCounters) (key : Buf) (p : List Pbuf) : Option TunEffect :=
  if skb.Short then some .lost
  else do
    let (p, _) ← sbufKeyXor p key
    return .udpSendto p

end EthoSlip
