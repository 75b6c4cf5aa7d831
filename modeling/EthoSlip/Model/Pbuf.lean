import EthoSlip.Model.Memory

/-!
# Packet buffers

The `struct pbuf` chains of lwIP, of which only the lengths and the payloads concern this
repository, and `pbuf_copy_partial`.
-/

namespace EthoSlip

/-- A `struct pbuf` with the `len` bytes that start at its payload. -/
@[ext]
structure Pbuf where
  totLen : UInt16
  len : UInt16
  payload : Buf
  length_payload : payload.length = len.toNat
  deriving DecidableEq

/-- Other bytes of the same number are written to the payload. -/
def Pbuf.setPayload (p : Pbuf) (payload : Buf) (h : payload.length = p.payload.length) : Pbuf where
  totLen := p.totLen
  len := p.len
  payload := payload
  length_payload := h.trans p.length_payload

/-- The payloads of a chain, one after the other. -/
def chainBytes (chain : List Pbuf) : List Byte := chain.flatMap Pbuf.payload

@[simp] lemma chainBytes_nil : chainBytes [] = [] := rfl

@[simp] lemma chainBytes_cons (p : Pbuf) (chain : List Pbuf) :
    chainBytes (p :: chain) = p.payload ++ chainBytes chain := rfl

/-- `n` bytes of a segment are taken when `len` bytes are to go. -/
lemma Pbuf.bufCopyLen (p : Pbuf) {len n : UInt16} (hn : n = if len < p.len then len else p.len) :
    n.toNat = min len.toNat p.payload.length ∧ n ≤ p.len ∧
      (len - n).toNat = len.toNat - p.payload.length := by
  have hcopy : n.toNat = min len.toNat p.payload.length := by
    rw [hn, p.length_payload]
    split_ifs with h
    · rw [min_eq_left (UInt16.lt_iff_toNat_lt.mp h).le]
    · rw [min_eq_right (UInt16.le_iff_toNat_le.mp (UInt16.not_lt.mp h))]
  have hsub : n ≤ len := by
    rw [UInt16.le_iff_toNat_le, hcopy]
    exact min_le_left _ _
  refine ⟨hcopy, ?_, ?_⟩
  · rw [UInt16.le_iff_toNat_le, hcopy, p.length_payload]
    exact min_le_right _ _
  · rw [UInt16.toNat_sub_of_le _ _ hsub, hcopy]
    omega

/-- The loop of `pbuf_copy_partial`, in which every variable but the pointers is a `u16_t`. -/
def copyPartialLoop : List Pbuf → Buf → (len offset left copiedTotal : UInt16) →
    Option (Buf × UInt16)
  | [], dataptr, _, _, _, copiedTotal => some (dataptr, copiedTotal)
  | p :: next, dataptr, len, offset, left, copiedTotal =>
    if len = 0 then some (dataptr, copiedTotal)
    else if offset ≠ 0 ∧ p.len ≤ offset then
      copyPartialLoop next dataptr len (offset - p.len) left copiedTotal
    else do
      let bufCopyLen := if len < p.len - offset then len else p.len - offset
      let dataptr ←
        dataptr.memcpy left.toNat (p.payload.drop offset.toNat) bufCopyLen.toNat
      copyPartialLoop next dataptr (len - bufCopyLen) 0 (left + bufCopyLen)
        (copiedTotal + bufCopyLen)

def pbufCopyPartial (buf : List Pbuf) (dataptr : Buf) (len offset : UInt16) :
    Option (Buf × UInt16) :=
  copyPartialLoop buf dataptr len offset 0 0

/-- The counters of the driver that the packet callbacks look at. -/
structure SkbCounters where
  maxLocalSkbNum : Int
  skbbufUsedNum : Int
  maxSkbBufNum : Int
  skbdataUsedNum : Int
  deriving DecidableEq

/-- The condition on which the callbacks drop a packet. -/
def SkbCounters.Short (skb : SkbCounters) : Prop :=
  skb.maxLocalSkbNum - 2 ≤ skb.skbbufUsedNum ∨ skb.maxSkbBufNum - 2 ≤ skb.skbdataUsedNum

instance (skb : SkbCounters) : Decidable skb.Short := by
  unfold SkbCounters.Short
  infer_instance

end EthoSlip
