import EthoSlip.Model.EthoslipIf
import EthoSlip.Proofs.Callbacks
import EthoSlip.Proofs.ReceiveInterrupt

/-!
# Between the PC stack and the access point

The interface of the PC stack puts on the line what the TAP loop would for the same packets, so that
its packets reach the driver of the module however lwIP cuts them into segments. The packets of the
access point reach the PC in the same way.
-/

namespace EthoSlip
open Lib

lemma ethoslipifLowLevelOutput_complete {netif : EthoslipIf} {chain : List Pbuf}
    (hc : Complete chain) (hfits : FitsTap (chainBytes chain))
    (hbuf : netif.lwipOutBuffer.length = pcBufSize) (hptr : netif.uart.gsTxPtr = 0) :
    ∃ netif', ethoslipifLowLevelOutput netif chain = some netif' ∧
      netif'.lwipOutBuffer.length = pcBufSize ∧ netif'.uart.gsTxPtr = 0 ∧
      netif'.uart.written = netif.uart.written ++ [lineFrame (chainBytes chain)] := by
  have hlen : (chainBytes chain).length + 2 ≤ netif.lwipOutBuffer.length := by
    unfold FitsTap at hfits
    rw [hbuf, pcBufSize]
    omega
  obtain ⟨buf, next, r, rfl, htot, hcopy⟩ := pbufCopyPartial_complete hc (p := netif.lwipOutBuffer)
    (by omega)
  have hcalc := ifApiCalculateChecksum_overlay netif.lwipOutBuffer (chainBytes (buf :: next)) hlen
  obtain ⟨uart, hsend, hptr', hwritten⟩ :=
    sendPacket_buffered (sealPayload (chainBytes (buf :: next))) netif.uart hptr
  rw [← sendPacket_overlay bufferedUart netif.lwipOutBuffer, length_sealPayload] at hsend
  refine ⟨⟨netif.lwipOutBuffer.overlay (sealPayload (chainBytes (buf :: next))), uart⟩, ?_, ?_,
    hptr', hwritten⟩
  · simp only [ethoslipifLowLevelOutput, hcopy, htot, hcalc, hsend, Option.bind_eq_bind,
      Option.bind_some, Option.pure_def]
  · rw [Buf.length_overlay _ _ (by rw [length_sealPayload]; exact hlen), hbuf]

lemma ethoslipifOutputs_complete (chains : List (List Pbuf)) (hc : ∀ chain ∈ chains, Complete chain)
    (hfits : ∀ chain ∈ chains, FitsTap (chainBytes chain)) {netif : EthoslipIf}
    (hbuf : netif.lwipOutBuffer.length = pcBufSize) (hptr : netif.uart.gsTxPtr = 0) :
    ∃ netif', ethoslipifOutputs netif chains = some netif' ∧
      netif'.uart.written.flatten =
        netif.uart.written.flatten ++ lineOf (chains.map chainBytes) := by
  induction chains generalizing netif with
  | nil => exact ⟨netif, rfl, by rw [List.map_nil, lineOf_nil, List.append_nil]⟩
  | cons chain chains ih =>
    obtain ⟨netif₁, hcall, hbuf₁, hptr₁, hwritten₁⟩ :=
      ethoslipifLowLevelOutput_complete (hc chain (by simp)) (hfits chain (by simp)) hbuf hptr
    obtain ⟨netif', hrun, hwritten⟩ := ih (fun c h => hc c (by simp [h]))
      (fun c h => hfits c (by simp [h])) hbuf₁ hptr₁
    refine ⟨netif', ?_, ?_⟩
    · rw [ethoslipifOutputs, run_cons, hcall, Option.bind_some]
      exact hrun
    · rw [hwritten, hwritten₁, List.map_cons, lineOf_cons]
      simp

/-- A packet that was sent left room for its trailer. -/
lemma ethoslipifLowLevelOutput_bounds {netif netif' : EthoslipIf} {chain : List Pbuf}
    (hc : Complete chain) (hbuf : netif.lwipOutBuffer.length = pcBufSize)
    (h : ethoslipifLowLevelOutput netif chain = some netif') :
    FitsTap (chainBytes chain) ∧ netif'.lwipOutBuffer.length = pcBufSize := by
  cases chain with
  | nil => simp [Complete] at hc
  | cons buf next =>
    have htot : buf.totLen.toNat = (chainBytes (buf :: next)).length := by
      rw [Complete, List.head?_cons, Option.map_some, Option.some.injEq] at hc
      exact hc
    simp only [ethoslipifLowLevelOutput, Option.bind_eq_bind, Option.bind_eq_some_iff,
      Option.pure_def, Option.some.injEq] at h
    obtain ⟨⟨copied, r⟩, hcopy, ⟨sealedBuf, len⟩, hcalc, uart, -, rfl⟩ := h
    have hcopied : copied.length = pcBufSize := (length_copyPartialLoop hcopy).trans hbuf
    obtain ⟨hroom, hlen, -⟩ := ifApiCalculateChecksum_bounds hcalc
    refine ⟨?_, hlen.trans hcopied⟩
    rw [hcopied, htot, pcBufSize] at hroom
    unfold FitsTap
    omega

lemma ethoslipifOutputs_bounds {chains : List (List Pbuf)} (hc : ∀ chain ∈ chains, Complete chain)
    {netif netif' : EthoslipIf} (hbuf : netif.lwipOutBuffer.length = pcBufSize)
    (h : ethoslipifOutputs netif chains = some netif') :
    ∀ chain ∈ chains, FitsTap (chainBytes chain) := by
  induction chains generalizing netif with
  | nil => intro chain hchain; simp at hchain
  | cons chain chains ih =>
    obtain ⟨netif₁, hcall, hrun⟩ := exists_step_of_run_cons h
    obtain ⟨hfits, hbuf₁⟩ := ethoslipifLowLevelOutput_bounds (hc chain (by simp)) hbuf hcall
    exact List.forall_mem_cons.mpr ⟨hfits, ih (fun c h => hc c (by simp [h])) hbuf₁ hrun⟩

/-- Whole packets leave `lwip_out_buffer` exactly when one of them is longer than 3998 bytes, and
otherwise put on the line, however they are cut into segments, the bytes that the TAP loop puts
there for their contents. When all of them are no longer than 1998 bytes and no wlan API frames, a
task of the module that keeps up with the interrupts gives them to the driver, in order and once
each, but for those for which `pbuf_alloc` fails. -/
theorem lwip_packets_reach_driver {ω : Type} (X : XQueue ω)
    (pbufAlloc : Nat → (n : Nat) → Malloc n) (a : RelayState) (ha : a.wlan.Sound)
    (slipOutBuffer : Vector Byte moduleBufSize) (lwipOutBuffer : Vector Byte pcBufSize)
    (chains : List (List Pbuf)) (hc : ∀ chain ∈ chains, Complete chain) :
    ((ethoslipifOutputs (.init lwipOutBuffer) chains).isSome ↔
      ∀ chain ∈ chains, FitsTap (chainBytes chain)) ∧
    ∀ netif, ethoslipifOutputs (.init lwipOutBuffer) chains = some netif →
      netif.uart.written.flatten = sentLine (chains.map chainBytes) ∧
      ((∀ chain ∈ chains, FitsModule (chainBytes chain) ∧ ¬IsWlanApi (chainBytes chain)) →
        ∀ ticks, rxBytes ticks = netif.uart.written.flatten → KeepsUp X ticks →
          (slip2ipTaskOnQueue X pbufAlloc a slipOutBuffer ticks).turns.map Prod.fst <+:
              relayed pbufAlloc a.pbufAllocs (chains.map chainBytes) ∧
            (X.contents (charQueueLeft X X.xQueueCreate ticks) = .empty →
              (slip2ipTaskOnQueue X pbufAlloc a slipOutBuffer ticks).turns.map Prod.fst =
                relayed pbufAlloc a.pbufAllocs (chains.map chainBytes))) := by
  have hbuf : (EthoslipIf.init lwipOutBuffer).lwipOutBuffer.length = pcBufSize :=
    lwipOutBuffer.length_toList
  constructor
  · constructor
    · intro h
      obtain ⟨netif, hrun⟩ := Option.isSome_iff_exists.mp h
      exact ethoslipifOutputs_bounds hc hbuf hrun
    · intro hfits
      obtain ⟨netif, hrun, -⟩ := ethoslipifOutputs_complete chains hc hfits hbuf rfl
      rw [hrun, Option.isSome_some]
  · intro netif hrun
    have hfits := ethoslipifOutputs_bounds hc hbuf hrun
    obtain ⟨netif', hrun', hwritten⟩ := ethoslipifOutputs_complete chains hc hfits hbuf rfl
    rw [hrun, Option.some.injEq] at hrun'
    rw [← hrun'] at hwritten
    have hline : netif.uart.written.flatten = sentLine (chains.map chainBytes) := by
      rw [(sentLine_eq _ (List.forall_mem_map.mpr hfits)).2, hwritten]
      rfl
    refine ⟨hline, ?_⟩
    intro hpayloads ticks hticks hkeeps
    exact relayed_through_queue X pbufAlloc ha slipOutBuffer (List.forall_mem_map.mpr hpayloads)
      (hticks.trans hline) hkeeps

/-- A packet in two segments and one in a single segment, of reserved bytes. -/
def lwipPackets : List (List Pbuf) :=
  [[⟨2, 1, [slipEnd], rfl⟩, ⟨1, 1, [7], rfl⟩], [⟨1, 1, [slipEsc], rfl⟩]]

theorem lwip_packets_reach_driver_witness :
    ∃ netif, ethoslipifOutputs (.init (Vector.replicate _ 0)) lwipPackets = some netif ∧
      netif.uart.written.flatten = sentLine [[slipEnd, 7], [slipEsc]] ∧
      (slip2ipTaskOnQueue fifoQueue anyPbuf ⟨labModule, 0⟩ (Vector.replicate _ 0xff)
          (arrivals netif.uart.written.flatten)).turns.map Prod.fst <+:
        [.lowLevelOutput [slipEnd, 7], .lowLevelOutput [slipEsc]] := by
  obtain ⟨hiff, hsent⟩ := lwip_packets_reach_driver fifoQueue anyPbuf ⟨labModule, 0⟩
    labModule_good.toSound (Vector.replicate _ 0xff) (Vector.replicate _ 0) lwipPackets (by decide)
  obtain ⟨netif, hrun⟩ := Option.isSome_iff_exists.mp (hiff.mpr (by decide))
  obtain ⟨hline, hdriver⟩ := hsent netif hrun
  refine ⟨netif, hrun, hline, ?_⟩
  have hticks : rxBytes (arrivals netif.uart.written.flatten) = netif.uart.written.flatten :=
    rxBytes_arrivals _
  apply (hdriver (by decide) _ hticks ?_).1
  apply keepsUp_of_length_le
  rw [hticks, hline, (sentLine_eq _ (by decide)).2]
  decide

/-- The callback does not drop the packet. -/
def ApCall.Admitted (c : ApCall) : Prop := c.slipUsed = 0 ∧ ¬c.skb.Short

instance (c : ApCall) : Decidable c.Admitted := inferInstanceAs (Decidable (_ ∧ _))

/-- The payload that the callback makes of a packet. -/
def apForwarded (c : ApCall) : Option (List Byte) :=
  if c.Admitted then some (chainBytes c.p) else none

lemma fromApInput_dropped {c : ApCall} (h : ¬c.Admitted) (out : Buf) :
    fromApInput c.slipUsed c.skb out c.p = some (out, []) := by
  unfold fromApInput
  by_cases hused : c.slipUsed = 0
  · have hskb : c.skb.Short := not_not.mp (fun hskb => h ⟨hused, hskb⟩)
    rw [if_neg (not_not.mpr hused), if_pos hskb]
  · rw [if_pos hused]

/-- A whole packet is sent as the frame of its bytes. -/
lemma fromApInput_complete {c : ApCall} (h : c.Admitted) (hc : Complete c.p)
    (hfits : FitsModule (chainBytes c.p)) {out : Buf} (hout : out.length = moduleBufSize) :
    fromApInput c.slipUsed c.skb out c.p = some (out.overlay (sealPayload (chainBytes c.p)),
      slipCode.frame (sealPayload (chainBytes c.p))) := by
  obtain ⟨slipUsed, skb, p⟩ := c
  cases p with
  | nil => simp [Complete] at hc
  | cons buf next =>
    have htot : buf.totLen.toNat = (chainBytes (buf :: next)).length := by
      rw [Complete, List.head?_cons, Option.map_some, Option.some.injEq] at hc
      exact hc
    have hroom : buf.totLen.toNat + 2 ≤ moduleBufSize := by
      rw [htot]
      exact Nat.add_le_add_right hfits 2
    have hpayload : fromApPayload out (buf :: next) buf.totLen.toNat = chainBytes (buf :: next) := by
      rw [fromApPayload, htot, List.take_length, Buf.take_overlay]
    rw [fromApInput_fits h.1 h.2 hout hroom, hpayload]

lemma fromApInput_forwards {c : ApCall}
    (h : c.Admitted → Complete c.p ∧ FitsModule (chainBytes c.p)) :
    Forwards (fun out c => fromApInput c.slipUsed c.skb out c.p) moduleBufSize c (apForwarded c) := by
  intro out hout
  unfold apForwarded
  split_ifs with hadmitted
  · obtain ⟨hc, hfits⟩ := h hadmitted
    refine ⟨out.overlay (sealPayload (chainBytes c.p)), ?_, fromApInput_complete hadmitted hc hfits
      hout⟩
    unfold FitsModule at hfits
    rw [Buf.length_overlay _ _ (by rw [length_sealPayload, hout, moduleBufSize]; omega), hout]
  · exact ⟨out, hout, fromApInput_dropped hadmitted out⟩

lemma length_fromApInput {c : ApCall} {out out' : Buf} {sent : List Byte}
    (h : fromApInput c.slipUsed c.skb out c.p = some (out', sent)) : out'.length = out.length := by
  by_cases hadmitted : c.Admitted
  · obtain ⟨slipUsed, skb, p⟩ := c
    cases p with
    | nil =>
      rw [fromApInput, if_neg (not_not.mpr hadmitted.1), if_neg hadmitted.2] at h
      cases h
    | cons buf next =>
      rw [fromApInput, if_neg (not_not.mpr hadmitted.1), if_neg hadmitted.2] at h
      simp only [Option.bind_eq_bind, Option.bind_eq_some_iff, Option.pure_def, Option.some.injEq,
        Prod.mk.injEq] at h
      obtain ⟨⟨copied, r⟩, hcopy, ⟨sealedBuf, len⟩, hcalc, written, -, rfl, -⟩ := h
      exact (ifApiCalculateChecksum_bounds hcalc).2.1.trans (length_copyPartialLoop hcopy)
  · rw [fromApInput_dropped hadmitted, Option.some.injEq, Prod.mk.injEq] at h
    rw [← h.1]

lemma apDeliveries_bounds {calls : List ApCall} (hc : ∀ c ∈ calls, c.Admitted → Complete c.p)
    {s s' : Buf × List Byte} (hbuf : s.1.length = moduleBufSize)
    (h : run apDelivery s calls = some s') :
    ∀ c ∈ calls, c.Admitted → FitsModule (chainBytes c.p) := by
  induction calls generalizing s with
  | nil => intro c hcall; simp at hcall
  | cons c calls ih =>
    obtain ⟨t, hcall, hrun⟩ := exists_step_of_run_cons h
    obtain ⟨r, hr, rfl⟩ := Option.map_eq_some_iff.mp hcall
    have hlen : r.1.length = moduleBufSize := (length_fromApInput hr).trans hbuf
    have hrest := ih (s := (r.1, s.2 ++ r.2)) (fun c h => hc c (by simp [h])) hlen hrun
    intro d hd hadmitted
    rcases List.mem_cons.mp hd with hfirst | hd
    · rw [hfirst] at hadmitted ⊢
      have hcomplete := hc c (by simp) hadmitted
      obtain ⟨slipUsed, skb, p⟩ := c
      cases p with
      | nil => simp [Complete] at hcomplete
      | cons buf next =>
        have hsome := (fromApInput_isSome_iff slipUsed skb buf next hbuf).mp
          (Option.isSome_iff_exists.mpr ⟨r, hr⟩)
        rw [Complete, List.head?_cons, Option.map_some, Option.some.injEq] at hcomplete
        rcases hsome with h | h | h
        · exact absurd hadmitted.1 h
        · exact absurd h hadmitted.2
        · change (chainBytes (buf :: next)).length ≤ 1998
          rw [hcomplete] at h
          exact Nat.le_of_add_le_add_right h
    · exact hrest d hd hadmitted

/-- However many whole packets the driver hands over, in any segments, and whatever the flag and the
counters are at each: the callback leaves its buffer exactly when it admits a packet of more than
1998 bytes, and otherwise the PC accepts the contents of the admitted packets, in order and once
each, and nothing else. -/
theorem access_point_to_pc (fromApOutBuffer : Vector Byte moduleBufSize) (calls : List ApCall)
    (hc : ∀ c ∈ calls, c.Admitted → Complete c.p) (slipOutBuffer : Vector Byte pcBufSize) :
    ((apDeliveries fromApOutBuffer calls).isSome ↔
      ∀ c ∈ calls, c.Admitted → FitsModule (chainBytes c.p)) ∧
    ∀ out written, apDeliveries fromApOutBuffer calls = some (out, written) →
      pcAccepted slipOutBuffer written =
        (calls.filter (fun c => c.Admitted)).map (fun c => chainBytes c.p) := by
  have hbuf := fromApOutBuffer.length_toList
  have hforwards (hfits : ∀ c ∈ calls, c.Admitted → FitsModule (chainBytes c.p)) :
      ∃ out written, apDeliveries fromApOutBuffer calls = some (out, written) ∧
        pcAccepted slipOutBuffer written = calls.filterMap apForwarded := by
    apply pcAccepted_forwards calls (fun c h => fromApInput_forwards (fun hadmitted =>
      ⟨hc c h hadmitted, hfits c h hadmitted⟩)) ?_ _ hbuf slipOutBuffer
    intro c h q hq
    unfold apForwarded at hq
    split_ifs at hq with hadmitted
    rw [Option.some.injEq] at hq
    rw [← hq]
    exact hfits c h hadmitted
  constructor
  · constructor
    · intro h
      obtain ⟨s, hrun⟩ := Option.isSome_iff_exists.mp h
      exact apDeliveries_bounds hc hbuf hrun
    · intro hfits
      obtain ⟨out, written, hrun, -⟩ := hforwards hfits
      rw [hrun, Option.isSome_some]
  · intro out written hrun
    obtain ⟨out', written', hrun', haccepted⟩ := hforwards (apDeliveries_bounds hc hbuf hrun)
    rw [hrun, Option.some.injEq, Prod.mk.injEq] at hrun'
    rw [hrun'.2, haccepted, ← List.filterMap_eq_map, List.filterMap_filter]
    apply List.filterMap_congr
    intro c _
    simp [apForwarded]

/-- The first packet finds the flag set, the second one comes in two segments, and the driver is
short of buffers at the last one. -/
theorem access_point_to_pc_witness :
    ∃ out written, apDeliveries (Vector.replicate _ 0)
        [⟨1, ⟨22, 0, 20, 0⟩, [⟨1, 1, [5], rfl⟩]⟩,
          ⟨0, ⟨22, 0, 20, 0⟩, [⟨2, 1, [slipEnd], rfl⟩, ⟨1, 1, [7], rfl⟩]⟩,
          ⟨0, ⟨22, 20, 20, 0⟩, [⟨1, 1, [6], rfl⟩]⟩] = some (out, written) ∧
      pcAccepted (Vector.replicate _ 0) written = [[slipEnd, 7]] := by
  obtain ⟨hiff, haccepted⟩ := access_point_to_pc (Vector.replicate _ 0)
    [⟨1, ⟨22, 0, 20, 0⟩, [⟨1, 1, [5], rfl⟩]⟩,
      ⟨0, ⟨22, 0, 20, 0⟩, [⟨2, 1, [slipEnd], rfl⟩, ⟨1, 1, [7], rfl⟩]⟩,
      ⟨0, ⟨22, 20, 20, 0⟩, [⟨1, 1, [6], rfl⟩]⟩] (by decide) (Vector.replicate _ 0)
  obtain ⟨⟨out, written⟩, hrun⟩ := Option.isSome_iff_exists.mp (hiff.mpr (by decide))
  exact ⟨out, written, hrun, haccepted out written hrun⟩

end EthoSlip
