import EthoSlip.Lib.Run
import EthoSlip.Proofs.KeyStream
import EthoSlip.Proofs.BufferBounds
import EthoSlip.Proofs.UartReception

/-!
# Packets through a static buffer

A callback that flattens packets into a `static` buffer and sends each of them as the frame of a
payload, or drops it, gives the PC the payloads of those that it has not dropped, in their order.
-/

namespace EthoSlip
open Lib

/-- The PC accepts the payloads of the frames, as they come. -/
lemma pcAccepted_frames {qs : List (List Byte)} (hqs : ∀ q ∈ qs, FitsModule q)
    (slipOutBuffer : Vector Byte pcBufSize) :
    pcAccepted slipOutBuffer ((qs.map sealPayload).flatMap slipCode.frame) = qs := by
  have hframes := slipCode.frames_flatMap_frame (qs.map sealPayload) []
  rw [List.append_nil, StuffingCode.frames_nil, List.append_nil] at hframes
  have hne : (qs.map sealPayload).filter (fun f => f ≠ []) = qs.map sealPayload := by
    apply List.filter_eq_self.mpr
    intro f hf
    obtain ⟨q, -, rfl⟩ := List.mem_map.mp hf
    simpa using sealPayload_ne_nil q
  have hpayload : ∀ q ∈ qs, payloadOf ((sealPayload q).take pcBufSize) = some q := by
    intro q hq
    have hfits := hqs q hq
    unfold FitsModule at hfits
    rw [List.take_of_length_le, payloadOf_sealPayload]
    rw [length_sealPayload, pcBufSize]
    omega
  rw [pcAccepted_eq, hframes, hne, List.filterMap_map]
  calc qs.filterMap ((fun f => payloadOf (f.take pcBufSize)) ∘ sealPayload)
      = qs.filterMap some := List.filterMap_congr hpayload
    _ = qs := List.filterMap_some

/-- A whole packet at the start of the buffer, with what the buffer held behind it. -/
lemma pbufCopyPartial_complete {chain : List Pbuf} (hc : Complete chain) {p : Buf}
    (h : (chainBytes chain).length ≤ p.length) :
    ∃ buf next r, chain = buf :: next ∧ buf.totLen.toNat = (chainBytes chain).length ∧
      pbufCopyPartial chain p buf.totLen 0 = some (p.overlay (chainBytes chain), r) := by
  cases chain with
  | nil => simp [Complete] at hc
  | cons buf next =>
    have htot : buf.totLen.toNat = (chainBytes (buf :: next)).length := by
      rw [Complete, List.head?_cons, Option.map_some, Option.some.injEq] at hc
      exact hc
    obtain ⟨r, hcopy⟩ := copyPartialLoop_overlay (buf :: next) p [] buf.totLen 0 0 rfl
      (by rw [List.length_nil, Nat.zero_add, htot]; exact h)
      (by rw [List.length_nil, Nat.zero_add]; exact buf.totLen.toNat_lt)
    rw [Buf.overlay_nil, List.nil_append, htot, List.take_length] at hcopy
    exact ⟨buf, next, r, rfl, htot, hcopy⟩

instance (chain : List Pbuf) : Decidable (Complete chain) := inferInstanceAs (Decidable (_ = _))

section Deliveries

variable {δ : Type} {callback : Buf → δ → Option (Buf × List Byte)} {n : ℕ}

/-- The payload that the callback makes of an input, if it does not drop it. -/
def Forwards (callback : Buf → δ → Option (Buf × List Byte)) (n : ℕ) (d : δ)
    (payload : Option (List Byte)) : Prop :=
  ∀ out : Buf, out.length = n → ∃ out' : Buf, out'.length = n ∧
    callback out d = some (out', (payload.map (fun q => slipCode.frame (sealPayload q))).getD [])

lemma run_forwards {payload : δ → Option (List Byte)} (ds : List δ)
    (h : ∀ d ∈ ds, Forwards callback n d (payload d)) (out : Buf) (hout : out.length = n)
    (written : List Byte) :
    ∃ out', run (fun s d => (callback s.1 d).map (fun r => (r.1, s.2 ++ r.2))) (out, written) ds =
      some (out', written ++ ((ds.filterMap payload).map sealPayload).flatMap slipCode.frame) := by
  induction ds generalizing out written with
  | nil => exact ⟨out, by simp⟩
  | cons d ds ih =>
    obtain ⟨out₁, hout₁, hcall⟩ := h d (by simp) out hout
    obtain ⟨out', hrun⟩ := ih (fun e he => h e (by simp [he])) out₁ hout₁
      (written ++ ((payload d).map (fun q => slipCode.frame (sealPayload q))).getD [])
    refine ⟨out', ?_⟩
    rw [run_cons, hcall, Option.map_some, Option.bind_some, hrun]
    cases hd : payload d with
    | none => rw [List.filterMap_cons_none hd, Option.map_none, Option.getD_none, List.append_nil]
    | some q =>
      rw [List.filterMap_cons_some hd, List.map_cons, List.flatMap_cons, Option.map_some,
        Option.getD_some, List.append_assoc]

theorem pcAccepted_forwards {payload : δ → Option (List Byte)} (ds : List δ)
    (h : ∀ d ∈ ds, Forwards callback n d (payload d))
    (hfits : ∀ d ∈ ds, ∀ q, payload d = some q → FitsModule q) (out : Buf) (hout : out.length = n)
    (slipOutBuffer : Vector Byte pcBufSize) :
    ∃ out' written,
      run (fun s d => (callback s.1 d).map (fun r => (r.1, s.2 ++ r.2))) (out, []) ds =
        some (out', written) ∧
      pcAccepted slipOutBuffer written = ds.filterMap payload := by
  obtain ⟨out', hrun⟩ := run_forwards ds h out hout []
  rw [List.nil_append] at hrun
  refine ⟨out', _, hrun, pcAccepted_frames ?_ slipOutBuffer⟩
  intro q hq
  obtain ⟨d, hd, hpayload⟩ := List.mem_filterMap.mp hq
  exact hfits d hd q hpayload

end Deliveries

end EthoSlip
