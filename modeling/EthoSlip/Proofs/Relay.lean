import EthoSlip.Model.Relay
import EthoSlip.Proofs.Frame
import EthoSlip.Proofs.HandlerContract

/-!
# The relay loop as a function of the frames

`slip2ip_task_proc` works in one static buffer that it never clears. What it does with a frame is
still a function of that frame and of the globals: the check, the test for the wlan API, the handler
with its answer in place and the copy for the driver all stay inside the frame.
-/

namespace EthoSlip
open Lib

/-- `IS_WLAN_API_FRAME_LEN` and `IS_WLAN_API_FRAME` of a payload. -/
def IsWlanApi (q : List Byte) : Prop := 14 < q.length ∧ q[12]? = some 0xff ∧ q[13]? = some 0xff

instance (q : List Byte) : Decidable (IsWlanApi q) := inferInstanceAs (Decidable (_ ∧ _))

/-- The reply on the line, where `wlan_api_pack_proc` has returned a length. -/
def replyOf (q : List Byte) (len : Int) : List Byte :=
  if 0 < len then slipCode.frame (sealPayload (q.take len.toNat)) else []

section Spec

variable (pbufAlloc : Nat → (n : Nat) → Malloc n)

/-- The reference: a frame that fails the check does nothing, a wlan API frame goes to the handler
as an object of its own, any other payload to the driver. In a sound state the handler has an answer
for every payload (`wlanApiPackProc_handled`). -/
def relayFrame (a : RelayState) (f : List Byte) : RelayState × RelayEffect :=
  match payloadOf f with
  | none => (a, .checksumError)
  | some q =>
    if IsWlanApi q then
      let (q', wlan, len) := (wlanApiPackProc q q.length a.wlan).getD (q, a.wlan, -1)
      ({ a with wlan := wlan }, .wlanApi wlan (replyOf q' len))
    else
      ({ a with pbufAllocs := a.pbufAllocs + 1 },
        match pbufAlloc a.pbufAllocs q.length with
        | none => .cannotAllocate
        | some _ => .lowLevelOutput q)

end Spec

lemma ifApiCheck_rejects (p : Buf) {f : List Byte} (h : f.length ≤ p.length)
    (hf : payloadOf f = none) :
    ∃ p' : Buf, ifApiCheck (p.overlay f) f.length = some (p', -1) ∧ p'.length = p.length := by
  have hcheck := ifApiCheck_overlay p f h
  unfold payloadOf at hf
  split_ifs at hf with hsealed
  split_ifs at hcheck with hshort
  · exact ⟨_, hcheck, p.length_overlay f h⟩
  · refine ⟨_, hcheck, p.length_overlay _ ?_⟩
    simp only [length_sealPayload, List.length_take]
    omega

lemma ifApiCheck_accepts (p : Buf) (q : List Byte) (h : (sealPayload q).length ≤ p.length) :
    ifApiCheck (p.overlay (sealPayload q)) (sealPayload q).length =
      some (p.overlay (sealPayload q), (q.length : Int)) := by
  have hcheck := ifApiCheck_overlay p (sealPayload q) h
  have hshort : ¬(sealPayload q).length < 2 := by simp
  have hpayload : (sealPayload q).take ((sealPayload q).length - 2) = q := by
    rw [length_sealPayload, Nat.add_sub_cancel, take_sealPayload]
  rw [if_neg hshort, hpayload, if_pos rfl] at hcheck
  rw [hcheck]
  simp

/-- The payload of the buffer stands in front of its trailer and of what earlier frames left. -/
lemma overlay_sealPayload (p : Buf) (q : List Byte) :
    ∃ z : Buf, p.overlay (sealPayload q) = q ++ z ∧ 2 ≤ z.length := by
  refine ⟨trailer q ++ p.drop (sealPayload q).length, ?_, ?_⟩
  · rw [Buf.overlay, sealPayload, List.append_assoc]
  · simp

lemma isWlanApi_payload (q z : List Byte) :
    isWlanApi (q ++ z) q.length = some (decide (IsWlanApi q)) := by
  unfold isWlanApi isWlanApiFrameLen
  by_cases hlen : 14 < q.length
  · have hc : q[12]? = some q[12] := List.getElem?_eq_getElem (by omega)
    have hd : q[13]? = some q[13] := List.getElem?_eq_getElem (by omega)
    have hiff : IsWlanApi q ↔ q[12] = 0xff ∧ q[13] = 0xff := by
      rw [IsWlanApi, hc, hd]
      simp [hlen]
    have hframe : isWlanApiFrame q = some (decide (q[12] = 0xff ∧ q[13] = 0xff)) := by
      rw [isWlanApiFrame, Buf.load, hc, Buf.load, hd]
      by_cases hff : q[12] = 0xff
      · simp [hff]
      · simp [hff]
    have hint : (14 : Int) < q.length := by exact_mod_cast hlen
    rw [if_pos (decide_eq_true hint), isWlanApiFrame_append z hframe, decide_eq_decide.mpr hiff]
  · have hint : ¬(14 : Int) < q.length := by exact_mod_cast hlen
    have hnot : ¬IsWlanApi q := fun h => hlen h.1
    simp [hint, hnot]

section Turn

variable (pbufAlloc : Nat → (n : Nat) → Malloc n)

/-- A wlan API frame is answered from the bytes of its payload alone. -/
lemma relayApi_payload (a : RelayState) {q q' : Buf} {wlan : ModuleState} {len : Int}
    (hproc : wlanApiPackProc q q.length a.wlan = some (q', wlan, len))
    (hhandled : Handled q q.length a.wlan q' wlan len) (z : Buf) (hz : 2 ≤ z.length) :
    ∃ p' : Buf, relayApi a (q ++ z) q.length =
      some ({ a with wlan := wlan }, p', .wlanApi wlan (replyOf q' len)) ∧
      p'.length = (q ++ z).length := by
  have hlength := hhandled.length_eq le_rfl
  have hlength' : (q' ++ z).length = (q ++ z).length := by
    rw [List.length_append, List.length_append, hlength]
  have hcall := wlanApiPackProc_append z hproc
  by_cases hpos : 0 < len
  · have hle : len.toNat ≤ q'.length := by
      cases hhandled with
      | refused => exact absurd hpos (by decide)
      | connected => exact absurd hpos (by decide)
      | answered hsize =>
        rw [hlength]
        exact hsize
    have hroom : len.toNat + 2 ≤ (q' ++ z).length := by
      rw [List.length_append]
      omega
    have hcalc := ifApiCalculateChecksum_take (q' ++ z) len.toNat hroom
    have hsend := sendPacket_overlay directUart (q' ++ z) (sealPayload (q'.take len.toNat)) []
    rw [List.take_append_of_le_length hle] at hcalc
    rw [sendPacket_direct, List.nil_append, length_sealPayload, List.length_take_of_le hle] at hsend
    refine ⟨(q' ++ z).overlay (sealPayload (q'.take len.toNat)), ?_, ?_⟩
    · simp only [relayApi, hcall, hpos, hcalc, hsend, replyOf, Option.bind_eq_bind, Option.bind_some,
        if_true, Option.pure_def]
    · rw [Buf.length_overlay, hlength']
      rw [length_sealPayload, List.length_take_of_le hle]
      exact hroom
  · refine ⟨q' ++ z, ?_, hlength'⟩
    simp only [relayApi, hcall, hpos, replyOf, Option.bind_eq_bind, Option.bind_some, if_false,
      Option.pure_def]

/-- The driver is given the payload as it is. -/
lemma relayOutput_payload (a : RelayState) (q z : Buf) :
    relayOutput pbufAlloc a (q ++ z) q.length =
      some ({ a with pbufAllocs := a.pbufAllocs + 1 }, q ++ z,
        match pbufAlloc a.pbufAllocs q.length with
        | none => .cannotAllocate
        | some _ => .lowLevelOutput q) := by
  unfold relayOutput
  cases pbufAlloc a.pbufAllocs q.length with
  | none => rfl
  | some object =>
    have hlen : object.toList.length = q.length := Vector.length_toList
    have hcopy : Buf.memcpy object.toList 0 (q ++ z) q.length = some q := by
      have hroom : 0 + q.length ≤ object.toList.length ∧ q.length ≤ (q ++ z).length := by
        rw [List.length_append]
        omega
      have hdrop : object.toList.drop q.length = [] := List.drop_of_length_le (by omega)
      rw [Buf.memcpy, if_pos hroom, List.take_left, Nat.zero_add, hdrop, List.take_zero,
        List.append_nil, List.nil_append]
    have htake : pbufTake object.toList (q ++ z) q.length = some (q, errOk) := by
      rw [pbufTake, if_neg (by omega), hcopy, Option.map_some]
    simp only [htake, Option.bind_eq_bind, Option.bind_some, Option.pure_def, ne_eq,
      not_true_eq_false, if_false]

/-- A turn of the task only looks at its frame, where the handler stays inside it. -/
lemma relayTurn_looksAtFrame (a : RelayState) {f : List Byte} (hf : f.length ≤ moduleBufSize)
    (hproc : ∀ q, payloadOf f = some q → ∃ q' wlan len,
      wlanApiPackProc q q.length a.wlan = some (q', wlan, len) ∧
        Handled q q.length a.wlan q' wlan len) :
    LooksAtFrame moduleBufSize (relayTurn pbufAlloc) (relayFrame pbufAlloc) a f := by
  intro p hp
  cases hq : payloadOf f with
  | none =>
    obtain ⟨p', hcheck, hp'⟩ := ifApiCheck_rejects p (hf.trans hp) hq
    refine ⟨p', ?_, hp'⟩
    simp [relayTurn, hcheck, relayFrame, hq]
  | some q =>
    obtain ⟨q', wlan, len, hcall, hhandled⟩ := hproc q hq
    rw [payloadOf_eq_some] at hq
    subst hq
    have hcheck := ifApiCheck_accepts p q (hf.trans hp)
    obtain ⟨z, hoverlay, hz⟩ := overlay_sealPayload p q
    have hlength : (q ++ z).length = p.length := by
      rw [← hoverlay, p.length_overlay _ (hf.trans hp)]
    have hpos : ¬(q.length : Int) < 0 := by omega
    rw [hoverlay] at hcheck ⊢
    unfold relayTurn relayFrame
    simp only [hcheck, isWlanApi_payload, payloadOf_sealPayload, Option.bind_eq_bind,
      Option.bind_some, if_neg hpos, decide_eq_true_eq, Int.toNat_natCast]
    by_cases hapi : IsWlanApi q
    · obtain ⟨p', happly, hp'⟩ := relayApi_payload a hcall hhandled z hz
      refine ⟨p', ?_, hp'.trans hlength⟩
      rw [if_pos hapi, if_pos hapi, happly, hcall, Option.getD_some]
    · refine ⟨q ++ z, ?_, hlength⟩
      rw [if_neg hapi, if_neg hapi, relayOutput_payload]
      rfl

lemma relayFrame_sound {a : RelayState} (ha : a.wlan.Sound) (f : List Byte) :
    (relayFrame pbufAlloc a f).1.wlan.Sound := by
  unfold relayFrame
  cases payloadOf f with
  | none => exact ha
  | some q =>
    by_cases hapi : IsWlanApi q
    · obtain ⟨q', wlan, len, hcall, hhandled⟩ := wlanApiPackProc_handled ha (le_refl q.length)
      simp only [hapi, if_true, hcall, Option.getD_some]
      exact hhandled.keeps_sound ha le_rfl
    · simp only [hapi, if_false]
      exact ha

end Turn

lemma relay_looksAtFrames (pbufAlloc : Nat → (n : Nat) → Malloc n) {a : RelayState}
    (ha : a.wlan.Sound) (w : List Byte) :
    LooksAtFrames moduleBufSize (relayTurn pbufAlloc) (relayFrame pbufAlloc) a
      (slipFrames moduleBufSize w) := by
  apply looksAtFrames_of_invariant moduleBufSize (I := fun a => a.wlan.Sound) _ a ha
  · intro f hf
    exact mem_slipFrames moduleBufSize (by decide) hf
  · intro a f ha _ hle
    constructor
    · apply relayTurn_looksAtFrame pbufAlloc a hle
      intro q _
      exact wlanApiPackProc_handled ha (le_refl q.length)
    · exact relayFrame_sound pbufAlloc ha f

/-- From a sound credential state, on any byte stream, the effects of the task are those of the
frames of the stream taken one after the other by `relayFrame`. The task ends waiting for the UART,
never outside a buffer, and what `slip_out_buffer` held at the start changes no effect. -/
theorem relay_follows_frames (pbufAlloc : Nat → (n : Nat) → Malloc n) (a : RelayState)
    (ha : a.wlan.Sound) (slipOutBuffer slipOutBuffer' : Vector Byte moduleBufSize) (w : List Byte) :
    (slip2ipTaskProc pbufAlloc a slipOutBuffer w).turns =
        handleFrames (relayFrame pbufAlloc) a (slipFrames moduleBufSize w) ∧
      (slip2ipTaskProc pbufAlloc a slipOutBuffer w).stop ≠ .outOfBounds ∧
      (slip2ipTaskProc pbufAlloc a slipOutBuffer' w).turns =
        (slip2ipTaskProc pbufAlloc a slipOutBuffer w).turns := by
  have hbody := relay_looksAtFrames pbufAlloc ha w
  have hrun (buffer : Vector Byte moduleBufSize) := serve_frames moduleBufSize (by decide) a
    buffer.toList (by rw [Vector.length_toList]) w hbody
  obtain ⟨q, -, hq⟩ := hrun slipOutBuffer
  obtain ⟨q', -, hq'⟩ := hrun slipOutBuffer'
  refine ⟨?_, ?_, ?_⟩
  · rw [slip2ipTaskProc, hq]
  · rw [slip2ipTaskProc, hq]
    simp
  · rw [slip2ipTaskProc, slip2ipTaskProc, hq, hq']

/-- A connect frame, a payload that starts in the bytes which it leaves behind, and one that fails
the check. -/
def relayedLine : List Byte :=
  slipCode.frame (sealPayload (connectFrame lab2Ssid lab2Passwd)) ++
    (slipCode.frame (sealPayload (List.replicate 12 0)) ++ slipCode.frame [1, 2, 3])

theorem relay_follows_frames_witness :
    (slip2ipTaskProc (fun _ n => some (Vector.replicate n 0)) ⟨labModule, 0⟩
        (Vector.replicate _ 0xff) relayedLine).turns =
        handleFrames (relayFrame (fun _ n => some (Vector.replicate n 0))) ⟨labModule, 0⟩
          (slipFrames moduleBufSize relayedLine) ∧
      (slip2ipTaskProc (fun _ n => some (Vector.replicate n 0)) ⟨labModule, 0⟩
        (Vector.replicate _ 0xff) relayedLine).stop ≠ .outOfBounds ∧
      (slip2ipTaskProc (fun _ n => some (Vector.replicate n 0)) ⟨labModule, 0⟩
        (Vector.replicate _ 0) relayedLine).turns =
        (slip2ipTaskProc (fun _ n => some (Vector.replicate n 0)) ⟨labModule, 0⟩
          (Vector.replicate _ 0xff) relayedLine).turns :=
  relay_follows_frames (fun _ n => some (Vector.replicate n 0)) ⟨labModule, 0⟩ labModule_good.toSound
    (Vector.replicate _ 0xff) (Vector.replicate _ 0) relayedLine

end EthoSlip
