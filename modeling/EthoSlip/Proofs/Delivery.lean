import EthoSlip.Proofs.Sender
import EthoSlip.Proofs.RecvPacket

/-!
# Delivery from the PC to the module

The module accepts the payloads whose sealed form is a frame of its input, cut to 2000 bytes. A
payload of at most 1998 bytes passes the transmit buffer and the receive buffer whole: its trailer
is never escaped, so that its frame takes at most 4000 bytes.
-/

namespace EthoSlip
open Lib

lemma checkPacket_overlay (p : Buf) (f : List Byte) (h : f.length ≤ p.length) :
    ∃ p' : Buf, checkPacket (p.overlay f) f.length = some (p', payloadOf f) ∧
      p'.length = p.length := by
  have hcheck := ifApiCheck_overlay p f h
  by_cases hlen : f.length < 2
  · have hnone : payloadOf f = none := by
      rw [payloadOf, if_neg]
      intro hf
      have := congrArg List.length hf
      simp only [length_sealPayload] at this
      omega
    rw [if_pos hlen] at hcheck
    exact ⟨p.overlay f, by simp [checkPacket, hcheck, hnone], p.length_overlay f h⟩
  · rw [if_neg hlen] at hcheck
    have hxs : (f.take (f.length - 2)).length = f.length - 2 := by simp
    refine ⟨p.overlay (sealPayload (f.take (f.length - 2))), ?_, p.length_overlay _ (by simp; omega)⟩
    by_cases hf : f = sealPayload (f.take (f.length - 2))
    · rw [if_pos hf] at hcheck
      have hint : ((f.length : Int) - 2).toNat = (f.take (f.length - 2)).length := by omega
      have hpos : ¬(f.length : Int) - 2 < 0 := by omega
      have htake : (p.overlay (sealPayload (f.take (f.length - 2)))).take
          (f.take (f.length - 2)).length = f.take (f.length - 2) := by
        rw [sealPayload, Buf.overlay, List.append_assoc, List.take_left]
      simp only [checkPacket, hcheck, Option.bind_eq_bind, Option.bind_some, Option.pure_def, hpos,
        if_false, hint, htake]
      rw [payloadOf, if_pos hf]
    · rw [if_neg hf] at hcheck
      simp only [checkPacket, hcheck, Option.bind_eq_bind, Option.bind_some, Option.pure_def]
      rw [payloadOf, if_neg hf]
      rfl

lemma checkPacket_looksAt (len : Nat) :
    LooksAt len
      (fun (_ : Unit) p received => (checkPacket p received).map (fun r => ((), r.1, r.2)))
      (fun _ f => ((), payloadOf f)) := by
  intro _ p f _ hf hp
  obtain ⟨p', hcheck, hlen⟩ := checkPacket_overlay p f (by omega)
  exact ⟨p', by simp [hcheck], hlen⟩

lemma handleFrames_map {σ β : Type} (g : List Byte → β) (l : List (List Byte × σ)) :
    handleFrames (fun (_ : Unit) f => ((), g f)) () l = l.map (fun f => (g f.1, f.2)) := by
  induction l with
  | nil => rfl
  | cons f l ih => rw [handleFrames, ih, List.map_cons]

section Module

variable (buf : Vector Byte moduleBufSize) (w : List Byte)

theorem moduleRun_turns :
    (moduleRun buf w).turns =
      (slipCode.feed .fresh w).map (fun f => (payloadOf (f.1.take moduleBufSize), f.2)) := by
  obtain ⟨q, -, hrun⟩ := serve_line moduleBufSize (by decide) (checkPacket_looksAt moduleBufSize) ()
    buf.toList (by simp) w
  rw [moduleRun, hrun, handleFrames_map, slipFrames, List.map_map]
  rfl

lemma accepted_eq :
    accepted buf w =
      (slipCode.frames .fresh w).filterMap (fun f => payloadOf (f.take moduleBufSize)) := by
  rw [accepted, moduleRun_turns, StuffingCode.frames, List.filterMap_map, List.filterMap_map]
  rfl

end Module

/-- A payload that fits the module's receive buffer together with its trailer. -/
def FitsModule (payload : List Byte) : Prop := payload.length ≤ 1998

instance (payload : List Byte) : Decidable (FitsModule payload) :=
  inferInstanceAs (Decidable (_ ≤ _))

lemma FitsModule.fitsTap {q : List Byte} (h : FitsModule q) : FitsTap q := by
  unfold FitsModule at h
  unfold FitsTap
  omega

lemma frame_sealPayload_length (q : List Byte) :
    (slipCode.frame (sealPayload q)).length = (slipCode.stuff q).length + 4 := by
  simp [StuffingCode.frame, sealPayload, stuff_trailer]

/-- The worst case takes exactly the 4000 bytes of the transmit buffer. -/
lemma lineFrame_of_fits {q : List Byte} (h : FitsModule q) :
    lineFrame q = slipCode.frame (sealPayload q) := by
  have hstuff := slipCode.stuff_length_le q
  have hlen := frame_sealPayload_length q
  unfold FitsModule at h
  exact List.take_of_length_le (by simp only [queueMaxNum]; omega)

lemma take_sealPayload_of_fits {q : List Byte} (h : FitsModule q) :
    (sealPayload q).take moduleBufSize = sealPayload q := by
  unfold FitsModule at h
  exact List.take_of_length_le (by simp [moduleBufSize]; omega)

lemma frames_lineOf_of_fits (qs : List (List Byte)) (h : ∀ q ∈ qs, FitsModule q) :
    slipCode.frames .fresh (lineOf qs) = qs.map sealPayload := by
  induction qs with
  | nil => rfl
  | cons q qs ih =>
    have hqs : ∀ q' ∈ qs, FitsModule q' := fun q' hq' => h q' (by simp [hq'])
    rw [lineOf_cons, lineFrame_of_fits (h q (by simp)),
      slipCode.frames_frame_fresh _ _ (sealPayload_ne_nil q), ih hqs, List.map_cons]

/-- The frames of payloads that fit are accepted as those payloads. -/
theorem accepted_lineOf (qs : List (List Byte)) (h : ∀ q ∈ qs, FitsModule q)
    (slipOutBuffer : Vector Byte moduleBufSize) : accepted slipOutBuffer (lineOf qs) = qs := by
  rw [accepted_eq, frames_lineOf_of_fits qs h, List.filterMap_map]
  have hsame : ∀ q ∈ qs, payloadOf ((sealPayload q).take moduleBufSize) = some q := by
    intro q hq
    rw [take_sealPayload_of_fits (h q hq), payloadOf_sealPayload]
  calc qs.filterMap ((fun f => payloadOf (f.take moduleBufSize)) ∘ sealPayload)
      = qs.filterMap some := List.filterMap_congr hsame
    _ = qs := List.filterMap_some

/-- Payloads of at most 1998 bytes are accepted by the module exactly as they were sent, in order
and once each, whatever its receive buffer held before. -/
theorem module_accepts_what_pc_sends (payloads : List (List Byte))
    (h : ∀ q ∈ payloads, FitsModule q) (slipOutBuffer : Vector Byte moduleBufSize) :
    (tapLoop payloads .init).isSome ∧ accepted slipOutBuffer (sentLine payloads) = payloads := by
  obtain ⟨hsome, hline⟩ := sentLine_eq payloads (fun q hq => (h q hq).fitsTap)
  refine ⟨hsome, ?_⟩
  rw [hline, accepted_lineOf payloads h]

/-- An empty payload, one of reserved bytes only, and one that looks like a frame. -/
theorem module_accepts_what_pc_sends_witness :
    (tapLoop [[], [slipEnd, slipEsc], [slipEnd, 7, slipEnd]] .init).isSome ∧
      accepted (Vector.replicate moduleBufSize 0)
        (sentLine [[], [slipEnd, slipEsc], [slipEnd, 7, slipEnd]]) =
        [[], [slipEnd, slipEsc], [slipEnd, 7, slipEnd]] :=
  module_accepts_what_pc_sends _ (by decide) _

end EthoSlip
