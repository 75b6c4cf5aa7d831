import EthoSlip.Model.Relay
import EthoSlip.Proofs.Checksum
import EthoSlip.Proofs.KeyStream
import EthoSlip.Proofs.Sender

/-!
# The bounds of the static buffers

A path that appends the checksum trailer stays in its buffer for packets that are at least two bytes
shorter than the buffer. The key stream starts at `2000 - tot_len`, which is outside the key for a
longer packet.
-/

namespace EthoSlip
open Lib

lemma tapTurn_bounds {q : List Byte} {t t' : TapState} (hbuf : t.tunOutBuffer.length = pcBufSize)
    (h : tapTurn q t = some t') : FitsTap q ∧ t'.tunOutBuffer.length = pcBufSize := by
  have hlen : (t.tunOutBuffer.overlay (q.take pcBufSize)).length = pcBufSize := by
    rw [Buf.length_overlay _ _ (by rw [hbuf]; exact List.length_take_le _ _), hbuf]
  simp only [tapTurn, Option.bind_eq_bind, Option.bind_eq_some_iff, Option.pure_def,
    Option.some.injEq] at h
  obtain ⟨⟨p, len⟩, hcalc, uart, -, rfl⟩ := h
  obtain ⟨hfits, hlen', -⟩ := ifApiCalculateChecksum_bounds hcalc
  refine ⟨?_, hlen'.trans hlen⟩
  rw [hlen, List.length_take] at hfits
  unfold FitsTap
  unfold pcBufSize at hfits
  omega

lemma tapLoop_bounds {qs : List (List Byte)} {t t' : TapState}
    (hbuf : t.tunOutBuffer.length = pcBufSize) (h : tapLoop qs t = some t') :
    ∀ q ∈ qs, FitsTap q := by
  induction qs generalizing t with
  | nil => intro q hq; simp at hq
  | cons q qs ih =>
    rw [tapLoop, Option.bind_eq_bind, Option.bind_eq_some_iff] at h
    obtain ⟨t₁, hturn, hloop⟩ := h
    obtain ⟨hq, hbuf₁⟩ := tapTurn_bounds hbuf hturn
    exact List.forall_mem_cons.mpr ⟨hq, ih hbuf₁ hloop⟩

theorem tapLoop_isSome_iff (qs : List (List Byte)) :
    (tapLoop qs .init).isSome ↔ ∀ q ∈ qs, FitsTap q := by
  constructor
  · intro h
    obtain ⟨t, ht⟩ := Option.isSome_iff_exists.mp h
    exact tapLoop_bounds (t := .init) (List.length_replicate ..) ht
  · intro h
    exact (sentLine_eq qs h).1

lemma length_copyPartialLoop {chain : List Pbuf} {p p' : Buf} {len offset left copied r : UInt16}
    (h : copyPartialLoop chain p len offset left copied = some (p', r)) :
    p'.length = p.length := by
  induction chain generalizing p len offset left copied with
  | nil =>
    simp only [copyPartialLoop, Option.some.injEq, Prod.mk.injEq] at h
    rw [h.1]
  | cons seg next ih =>
    unfold copyPartialLoop at h
    split_ifs at h with hlen hskip
    · simp only [Option.some.injEq, Prod.mk.injEq] at h
      rw [h.1]
    · exact ih h
    all_goals
      simp only [Option.bind_eq_bind, Option.bind_eq_some_iff] at h
      obtain ⟨copy, hcopy, h⟩ := h
      rw [ih h, Buf.length_memcpy hcopy]

/-- A copy from the start of a chain that has room appends the bytes of the chain, as many as are
asked for. -/
lemma copyPartialLoop_overlay (chain : List Pbuf) (p : Buf) (xs : List Byte)
    (len left copied : UInt16) (hleft : left.toNat = xs.length)
    (hroom : xs.length + len.toNat ≤ p.length) (hsize : xs.length + len.toNat < 2 ^ 16) :
    ∃ r, copyPartialLoop chain (p.overlay xs) len 0 left copied =
      some (p.overlay (xs ++ (chainBytes chain).take len.toNat), r) := by
  induction chain generalizing xs len left copied with
  | nil => exact ⟨copied, by rw [copyPartialLoop, chainBytes_nil, List.take_nil, List.append_nil]⟩
  | cons seg next ih =>
    by_cases hzero : len = 0
    · subst hzero
      exact ⟨copied, by simp [copyPartialLoop]⟩
    · set n : UInt16 := if len < seg.len then len else seg.len with hn
      obtain ⟨hcopy, -, hrest⟩ := seg.bufCopyLen hn
      have hlen : (seg.payload.take n.toNat).length = n.toNat :=
        List.length_take_of_le (by omega)
      have hleft' : (left + n).toNat = (xs ++ seg.payload.take n.toNat).length := by
        rw [UInt16.toNat_add, hleft, List.length_append, hlen, Nat.mod_eq_of_lt (by omega)]
      obtain ⟨r, hloop⟩ := ih (xs ++ seg.payload.take n.toNat) (len - n) (left + n) (copied + n)
        hleft' (by rw [List.length_append, hlen]; omega) (by rw [List.length_append, hlen]; omega)
      have hmemcpy := p.memcpy_overlay xs seg.payload (n := n.toNat) (by omega) (by omega)
      refine ⟨r, ?_⟩
      rw [copyPartialLoop, if_neg hzero, if_neg (by simp)]
      simp only [UInt16.sub_zero, ← hn, UInt16.toNat_zero, List.drop_zero, hleft, hmemcpy,
        Option.bind_eq_bind, Option.bind_some, hloop]
      rw [chainBytes_cons, List.take_append, hcopy, hrest, List.append_assoc,
        ← List.take_eq_take_min]

/-- What is sealed: the packet and, behind a chain that is too short for `tot_len`, what the buffer
held before. -/
def fromApPayload (out : Buf) (chain : List Pbuf) (totalLen : Nat) : List Byte :=
  (out.overlay ((chainBytes chain).take totalLen)).take totalLen

/-- The packet is sent with its trailer as one frame. -/
theorem fromApInput_fits {slipUsed : UInt32} {skb : SkbCounters} {out : Buf} {p : Pbuf}
    {next : List Pbuf} (hused : slipUsed = 0) (hskb : ¬skb.Short)
    (hout : out.length = moduleBufSize) (hfits : p.totLen.toNat + 2 ≤ moduleBufSize) :
    fromApInput slipUsed skb out (p :: next) =
      some (out.overlay (sealPayload (fromApPayload out (p :: next) p.totLen.toNat)),
        slipCode.frame (sealPayload (fromApPayload out (p :: next) p.totLen.toNat))) := by
  have hsize : moduleBufSize < UInt16.size := by decide
  obtain ⟨r, hcopy⟩ := copyPartialLoop_overlay (p :: next) out [] p.totLen 0 0 rfl
    (by rw [List.length_nil]; omega) (by rw [List.length_nil, Nat.zero_add]; exact p.totLen.toNat_lt)
  rw [Buf.overlay_nil, List.nil_append] at hcopy
  set copied := out.overlay ((chainBytes (p :: next)).take p.totLen.toNat) with hcopied
  have hlen : copied.length = moduleBufSize := by rw [length_copyPartialLoop hcopy, hout]
  have hq : (fromApPayload out (p :: next) p.totLen.toNat).length = p.totLen.toNat :=
    List.length_take_of_le (by rw [← hcopied]; omega)
  have hcalc := ifApiCalculateChecksum_take copied p.totLen.toNat (by omega)
  have hcover : copied.overlay (sealPayload (copied.take p.totLen.toNat)) =
      out.overlay (sealPayload (fromApPayload out (p :: next) p.totLen.toNat)) := by
    rw [fromApPayload, ← hcopied, hcopied]
    apply Buf.overlay_overlay
    rw [← hcopied, length_sealPayload, List.length_take_of_le (by omega : _ ≤ copied.length)]
    exact (List.length_take_le _ _).trans (Nat.le_add_right _ _)
  have htotal : (UInt16.ofNat (p.totLen.toNat + 2)).toNat = p.totLen.toNat + 2 :=
    UInt16.toNat_ofNat_of_lt' (lt_of_le_of_lt hfits hsize)
  have hsend := sendPacket_overlay directUart out
    (sealPayload (fromApPayload out (p :: next) p.totLen.toNat)) []
  rw [sendPacket_direct, length_sealPayload, hq, List.nil_append] at hsend
  rw [fromApInput, if_neg (not_not.mpr hused), if_neg hskb]
  simp only [pbufCopyPartial, hcopy, hcalc, hcover, htotal, hsend, Option.bind_eq_bind,
    Option.bind_some, Option.pure_def]

theorem fromApInput_isSome_iff (slipUsed : UInt32) (skb : SkbCounters) {out : Buf} (p : Pbuf)
    (next : List Pbuf) (hout : out.length = moduleBufSize) :
    (fromApInput slipUsed skb out (p :: next)).isSome ↔
      slipUsed ≠ 0 ∨ skb.Short ∨ p.totLen.toNat + 2 ≤ moduleBufSize := by
  by_cases hused : slipUsed = 0
  · by_cases hskb : skb.Short
    · simp [fromApInput, hused, hskb]
    · constructor
      · intro h
        obtain ⟨r, hr⟩ := Option.isSome_iff_exists.mp h
        rw [fromApInput, if_neg (by simp [hused]), if_neg hskb] at hr
        simp only [Option.bind_eq_bind, Option.bind_eq_some_iff] at hr
        obtain ⟨⟨copied, count⟩, hcopy, ⟨sealedBuf, len⟩, hcalc, -⟩ := hr
        have hbounds := (ifApiCalculateChecksum_bounds hcalc).1
        rw [length_copyPartialLoop hcopy, hout] at hbounds
        exact .inr (.inr hbounds)
      · rintro (h | h | h)
        · exact absurd hused h
        · exact absurd h hskb
        · rw [fromApInput_fits hused hskb hout h, Option.isSome_some]
  · simp [fromApInput, hused]

/-! ### The key stream -/

lemma xorSegment_zero (key : Buf) (j : UInt16) (p : Pbuf) : xorSegment key 0 j p = some (p, j) := by
  have hloop : xorLoop (· + 1) (loadU16 key) (0 : UInt16).toNat 0 j p.payload =
      some (p.payload, j) := rfl
  obtain ⟨q, hq, htot, hlen, hpayload⟩ := xorSegment_eq_some hloop
  rw [hq, Pbuf.ext htot hlen hpayload]

lemma xorSegment_outside {key : Buf} {n j : UInt16} (p : Pbuf) (hload : loadU16 key j = none)
    (hn : n ≠ 0) : xorSegment key n j p = none := by
  obtain ⟨left, hleft⟩ : ∃ left, n.toNat = left + 1 := by
    apply Nat.exists_eq_succ_of_ne_zero
    intro hzero
    exact hn (UInt16.toNat_inj.mp hzero)
  apply xorSegment_eq_none
  rw [hleft, xorLoop, hload]
  simp

/-- No byte is combined with the key once its index is behind the end of the key. -/
lemma sbufLoop_outside {key : Buf} {j : UInt16} (hload : loadU16 key j = none) (chain : List Pbuf)
    {totalLen len : UInt16} (hlen : len ≠ 0) :
    (sbufLoop key chain totalLen len j).isSome ↔ chainBytes chain = [] := by
  induction chain generalizing totalLen with
  | nil => simp [sbufLoop]
  | cons p next ih =>
    rw [chainBytes_cons, List.append_eq_nil_iff]
    by_cases hempty : p.len = 0
    · have hpayload : p.payload = [] := by
        apply List.eq_nil_of_length_eq_zero
        rw [p.length_payload, hempty, UInt16.toNat_zero]
      have hn : 0 = if len < p.len then len else p.len := by
        rw [hempty, if_neg (UInt16.not_lt.mpr UInt16.zero_le)]
      rw [sbufLoop_cons p next hlen hn, xorSegment_zero, Option.bind_some, Option.isSome_map,
        UInt16.sub_zero, ih, iff_true_intro hpayload, true_and]
    · have hpayload : p.payload ≠ [] := by
        intro hnil
        apply hempty
        have hzero := p.length_payload
        rw [hnil] at hzero
        exact UInt16.toNat_inj.mp hzero.symm
      have hn : (if len < p.len then len else p.len) ≠ 0 := by split_ifs <;> assumption
      rw [sbufLoop_cons p next hlen rfl, xorSegment_outside p hload hn, Option.bind_none,
        iff_false_intro hpayload, false_and]
      simp

theorem sbufKeyXor_isSome_iff {key : Buf} (hkey : key.length = tunBufSize) (p : Pbuf)
    (next : List Pbuf) :
    (sbufKeyXor (p :: next) key).isSome ↔
      p.totLen.toNat ≤ tunBufSize ∨ chainBytes (p :: next) = [] := by
  by_cases hfits : p.totLen.toNat ≤ tunBufSize
  · have hholds : HoldsStream key (fun i => key.getD i 0) := by
      intro i hi
      have hlt : i < key.length := by rw [hkey]; exact hi
      change key[i]? = some (List.getD key i 0)
      rw [List.getD_eq_getElem?_getD, List.getElem?_eq_getElem hlt, Option.getD_some]
    obtain ⟨chain, count, hxor, -⟩ := sbufKeyXor_maskFirst hholds p next hfits
    simp [hxor, hfits]
  · have hlen : p.totLen ≠ 0 := by
      intro hzero
      rw [hzero] at hfits
      exact hfits (Nat.zero_le _)
    have hload : loadU16 key (UInt16.ofNat tunBufSize - p.totLen) = none := by
      -- the index is `67536 - tot_len`
      apply List.getElem?_eq_none
      have hlt := p.totLen.toNat_lt
      rw [hkey, UInt16.toNat_sub]
      simp only [tunBufSize] at hfits ⊢
      change 2000 ≤ (2 ^ 16 - p.totLen.toNat + 2000) % 2 ^ 16
      omega
    rw [sbufKeyXor, sbufLoop_outside hload (p :: next) hlen, iff_false_intro hfits, false_or]

lemma sbufLoop_ne_nil {key : Buf} {p : Pbuf} {next chain : List Pbuf} {totalLen len j r : UInt16}
    (h : sbufLoop key (p :: next) totalLen len j = some (chain, r)) : chain ≠ [] := by
  by_cases hlen : len = 0
  · rw [sbufLoop, if_pos hlen, Option.some.injEq, Prod.mk.injEq] at h
    rw [← h.1]
    exact List.cons_ne_nil _ _
  · rw [sbufLoop_cons p next hlen rfl, Option.bind_eq_some_iff] at h
    obtain ⟨q, -, h⟩ := h
    rw [Option.map_eq_some_iff] at h
    obtain ⟨s, -, hs⟩ := h
    rw [Prod.mk.injEq] at hs
    rw [← hs.1]
    exact List.cons_ne_nil _ _

/-- The address has room behind the first six bytes of a segment of twelve. -/
lemma writeHwaddr_isSome (netif : NetifHwaddr) {p : Pbuf} (h : 12 ≤ p.len) :
    (writeHwaddr netif p).isSome := by
  have hlen : 12 ≤ p.payload.length := by
    rw [p.length_payload]
    exact UInt16.le_iff_toNat_le.mp h
  have hhwaddr := netif.hwaddrLen_le
  have hroom : 6 + netif.hwaddrLen.toNat ≤ p.payload.length ∧
      netif.hwaddrLen.toNat ≤ netif.hwaddr.toList.length := by
    rw [Vector.length_toList]
    omega
  unfold writeHwaddr
  split
  · rename_i hnone
    rw [Buf.memcpy, if_pos hroom] at hnone
    simp at hnone
  · rfl

lemma udpInputCb_isSome_iff (skb : SkbCounters) (netif : NetifHwaddr) {key : Buf} (p : Pbuf)
    (next : List Pbuf) :
    (udpInputCb skb netif key (p :: next)).isSome ↔
      skb.Short ∨ (sbufKeyXor (p :: next) key).isSome := by
  by_cases hskb : skb.Short
  · simp [udpInputCb, hskb]
  · rw [udpInputCb, if_neg hskb]
    cases hxor : sbufKeyXor (p :: next) key with
    | none => simp [hskb]
    | some r =>
      obtain ⟨chain, count⟩ := r
      obtain ⟨q, chain, rfl⟩ := List.exists_cons_of_ne_nil (sbufLoop_ne_nil hxor)
      simp only [Option.bind_eq_bind, Option.bind_some, Option.isSome_some, or_true, iff_true]
      split_ifs with hlen
      · obtain ⟨q', hq'⟩ := Option.isSome_iff_exists.mp (writeHwaddr_isSome netif hlen)
        rw [hq']
        rfl
      · rfl

lemma tunInput_isSome_iff (skb : SkbCounters) {key : Buf} (chain : List Pbuf) :
    (tunInput skb key chain).isSome ↔ skb.Short ∨ (sbufKeyXor chain key).isSome := by
  by_cases hskb : skb.Short
  · simp [tunInput, hskb]
  · simp [tunInput, hskb, Option.isSome_bind]

/-- Each path stays inside its buffer exactly for these lengths, whatever the buffers hold. -/
theorem relay_paths_in_bounds_iff (payloads : List (List Byte)) (slipUsed : UInt32)
    (skb : SkbCounters) (netif : NetifHwaddr) (fromApOutBuffer : Vector Byte moduleBufSize)
    (key : Vector Byte tunBufSize) (p : Pbuf) (next : List Pbuf) :
    ((tapLoop payloads .init).isSome ↔ ∀ payload ∈ payloads, payload.length ≤ 3998) ∧
    ((fromApInput slipUsed skb fromApOutBuffer.toList (p :: next)).isSome ↔
      slipUsed ≠ 0 ∨ skb.Short ∨ p.totLen.toNat ≤ 1998) ∧
    ((udpInputCb skb netif key.toList (p :: next)).isSome ↔
      skb.Short ∨ p.totLen.toNat ≤ 2000 ∨ chainBytes (p :: next) = []) ∧
    ((tunInput skb key.toList (p :: next)).isSome ↔
      skb.Short ∨ p.totLen.toNat ≤ 2000 ∨ chainBytes (p :: next) = []) := by
  have hap : p.totLen.toNat + 2 ≤ moduleBufSize ↔ p.totLen.toNat ≤ 1998 := by
    unfold moduleBufSize
    omega
  refine ⟨tapLoop_isSome_iff payloads, ?_, ?_, ?_⟩
  · rw [fromApInput_isSome_iff slipUsed skb p next fromApOutBuffer.length_toList, hap]
  · rw [udpInputCb_isSome_iff, sbufKeyXor_isSome_iff key.length_toList]
    rfl
  · rw [tunInput_isSome_iff, sbufKeyXor_isSome_iff key.length_toList]
    rfl

/-- A packet of `n` bytes in one segment. -/
def zeroPacket (n : UInt16) : Pbuf := ⟨n, n, List.replicate n.toNat 0, List.length_replicate ..⟩

/-- The shortest packets that leave the three buffers. -/
theorem buffers_left :
    tapLoop [List.replicate 3999 0] .init = none ∧
      fromApInput 0 ⟨22, 0, 20, 0⟩ (List.replicate moduleBufSize 0) [zeroPacket 1999] = none ∧
      tunInput ⟨22, 0, 20, 0⟩ keyStream [zeroPacket 2001] = none := by
  have hskb : ¬SkbCounters.Short ⟨22, 0, 20, 0⟩ := by decide
  refine ⟨?_, ?_, ?_⟩
  · rw [← Option.not_isSome_iff_eq_none, tapLoop_isSome_iff]
    intro h
    have hfits := h (List.replicate 3999 0) (List.mem_singleton_self _)
    rw [FitsTap, List.length_replicate] at hfits
    exact absurd hfits (by decide)
  · rw [← Option.not_isSome_iff_eq_none,
      fromApInput_isSome_iff 0 _ _ _ (List.length_replicate ..)]
    rintro (h | h | h)
    · exact h rfl
    · exact hskb h
    · exact absurd h (by decide)
  · have hkey : keyStream.length = tunBufSize := by
      rw [keyStream, List.length_map, List.length_range]
    rw [← Option.not_isSome_iff_eq_none, tunInput_isSome_iff, sbufKeyXor_isSome_iff hkey]
    rintro (h | h | h)
    · exact hskb h
    · exact absurd h (by decide)
    · have hlen := congrArg List.length h
      rw [chainBytes_cons, chainBytes_nil, List.append_nil, (zeroPacket 2001).length_payload] at hlen
      exact absurd hlen (by decide)

end EthoSlip
