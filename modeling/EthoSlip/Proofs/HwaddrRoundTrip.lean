import EthoSlip.Proofs.Relay

/-!
# The hardware address on its way

The PC asks for the address, the module answers in the buffer in which it has received the request,
and the PC hands the answer to its callback, whatever frames it has received in between.
-/

namespace EthoSlip
open Lib

section Log

variable {γ κ : Type} (act : γ → List Byte → WlanApi γ × κ → WlanApi γ × κ)

/-- A payload that is no wlan API frame is left to lwIP. -/
lemma rxProc_passes {p : Buf} (hp : ¬IsWlanApi p) (s : ApiLog γ κ) :
    loggingHost.wlanApiRxProc (loggedCall act) p p.length s = some (s, -1) := by
  have hclass := isWlanApi_payload p []
  rw [List.append_nil, decide_eq_false hp, isWlanApi] at hclass
  rw [ApiHost.wlanApiRxProc]
  by_cases hfree : (loggingHost.api s).gsWlanApiStatus = wlanApiTypeFree
  · simp [hfree]
  · split_ifs at hclass with hlen
    · simp [hfree, hlen, hclass]
    · simp [hfree, hlen]

lemma rxFrames_passes {earlier : List Buf} (h : ∀ p ∈ earlier, ¬IsWlanApi p) (ps : List Buf)
    (s : ApiLog γ κ) :
    rxFrames act (earlier ++ ps) s =
      (rxFrames act ps s).map (fun r => (r.1, List.replicate earlier.length (-1) ++ r.2)) := by
  induction earlier with
  | nil => simp
  | cons p earlier ih =>
    have hp := rxProc_passes act (h p (by simp)) s
    have htail := ih (fun q hq => h q (by simp [hq]))
    simp only [List.cons_append, rxFrames, hp, htail, Option.bind_eq_bind, Option.bind_some,
      Option.pure_def]
    cases rxFrames act ps s with
    | none => rfl
    | some r => rfl

end Log

def hwaddrAnswerFrame (hwaddr : Vector Byte 6) : List Byte := hwaddrAnswer hwaddr getHwaddrFrame

lemma hwaddrAnswerFrame_eq (hwaddr : Vector Byte 6) :
    hwaddrAnswerFrame hwaddr = List.replicate 6 0xff ++
      (hwaddr.toList ++ [0xff, 0xff, wlanApiTypeGetHwaddrRet, 0x01]) := rfl

lemma length_hwaddrAnswerFrame (hwaddr : Vector Byte 6) :
    (hwaddrAnswerFrame hwaddr).length = sizeofDefault := length_hwaddrAnswer hwaddr (by decide)

/-- The six bytes in the field `src`. -/
lemma src_hwaddrAnswerFrame (hwaddr : Vector Byte 6) :
    ((hwaddrAnswerFrame hwaddr).drop offSrc).take 6 = hwaddr.toList := by
  have hlen : hwaddr.toList.length = 6 := Vector.length_toList
  rw [hwaddrAnswerFrame_eq]
  change (hwaddr.toList ++ [0xff, 0xff, wlanApiTypeGetHwaddrRet, 0x01]).take 6 = _
  rw [List.take_append_of_le_length hlen.ge, List.take_of_length_le hlen.le]

/-- The type and length fields stand behind the address. -/
lemma load_hwaddrAnswerFrame (hwaddr : Vector Byte 6) (k : Nat) :
    Buf.load (hwaddrAnswerFrame hwaddr) (12 + k) =
      Buf.load [0xff, 0xff, wlanApiTypeGetHwaddrRet, 0x01] k := by
  have hlen : (List.replicate 6 (0xff : Byte) ++ hwaddr.toList).length = 12 := by
    rw [List.length_append, List.length_replicate, Vector.length_toList]
  rw [hwaddrAnswerFrame_eq, ← List.append_assoc, Buf.load,
    List.getElem?_append_right (by omega), hlen, Nat.add_sub_cancel_left]
  rfl

lemma slipFrames_frame (len : Nat) (p : List Byte) (hp : p ≠ []) :
    slipFrames len (slipCode.frame p) = [(p.take len, [])] := by
  have hfeed := slipCode.feed_frame_fresh p [] hp
  rw [List.append_nil, StuffingCode.feed_nil] at hfeed
  rw [slipFrames, hfeed, List.map_singleton]

lemma pcAccepted_frame (slipOutBuffer : Vector Byte pcBufSize) (q : List Byte)
    (hq : (sealPayload q).length ≤ pcBufSize) :
    pcAccepted slipOutBuffer (slipCode.frame (sealPayload q)) = [q] := by
  obtain ⟨b, -, hrun⟩ := serve_line pcBufSize (by decide) (checkPacket_looksAt pcBufSize) ()
    slipOutBuffer.toList (by simp) (slipCode.frame (sealPayload q))
  rw [pcAccepted, hrun, handleFrames_map, slipFrames_frame _ _ (sealPayload_ne_nil q),
    List.take_of_length_le hq]
  simp

lemma relayFrame_request (pbufAlloc : Nat → (n : Nat) → Malloc n) {a : RelayState}
    (hlen : a.wlan.hwaddrLen = 6) :
    relayFrame pbufAlloc a (sealPayload getHwaddrFrame) =
      (a, .wlanApi a.wlan (slipCode.frame (sealPayload (hwaddrAnswerFrame a.wlan.hwaddr)))) := by
  have htype : Buf.load getHwaddrFrame offType = some wlanApiTypeGetHwaddr := rfl
  have hcall := wlanApiPackProc_getHwaddr hlen (le_refl _) (by decide) htype
  have hapi : IsWlanApi getHwaddrFrame := by decide
  have hall : (hwaddrAnswerFrame a.wlan.hwaddr).take sizeofDefault = hwaddrAnswerFrame a.wlan.hwaddr :=
    List.take_of_length_le (length_hwaddrAnswerFrame _).le
  have hreply : replyOf (hwaddrAnswerFrame a.wlan.hwaddr) sizeofDefault =
      slipCode.frame (sealPayload (hwaddrAnswerFrame a.wlan.hwaddr)) := by
    rw [replyOf, if_pos (by decide), Int.toNat_natCast, hall]
  rw [relayFrame, payloadOf_sealPayload]
  change wlanApiPackProc getHwaddrFrame getHwaddrFrame.length a.wlan = _ at hcall
  simp only [hapi, if_true, hcall, Option.getD_some]
  change (a, RelayEffect.wlanApi a.wlan (replyOf (hwaddrAnswerFrame a.wlan.hwaddr) sizeofDefault)) = _
  rw [hreply]

lemma relay_request (pbufAlloc : Nat → (n : Nat) → Malloc n) {a : RelayState}
    (hlen : a.wlan.hwaddrLen = 6) (slipOutBuffer : Vector Byte moduleBufSize) :
    (slip2ipTaskProc pbufAlloc a slipOutBuffer (slipCode.frame (sealPayload getHwaddrFrame))).turns =
      [(.wlanApi a.wlan (slipCode.frame (sealPayload (hwaddrAnswerFrame a.wlan.hwaddr))), [])] := by
  have hframes := slipFrames_frame moduleBufSize (sealPayload getHwaddrFrame) (sealPayload_ne_nil _)
  rw [take_sealPayload_of_fits (by decide)] at hframes
  have hbody : LooksAtFrames moduleBufSize (relayTurn pbufAlloc) (relayFrame pbufAlloc) a
      (slipFrames moduleBufSize (slipCode.frame (sealPayload getHwaddrFrame))) := by
    rw [hframes]
    refine ⟨relayTurn_looksAtFrame pbufAlloc a (by decide) ?_, trivial⟩
    intro q hq
    rw [payloadOf_sealPayload, Option.some.injEq] at hq
    subst hq
    exact ⟨_, _, _, wlanApiPackProc_getHwaddr hlen (by decide) le_rfl rfl, .answered (by decide) rfl⟩
  obtain ⟨b, -, hrun⟩ := serve_frames moduleBufSize (by decide) a slipOutBuffer.toList (by simp) _ hbody
  rw [slip2ipTaskProc, hrun, hframes]
  simp only [handleFrames, relayFrame_request pbufAlloc hlen]

lemma rxProc_answer {γ κ : Type} (act : γ → List Byte → WlanApi γ × κ → WlanApi γ × κ)
    (hwaddr : Vector Byte 6) (callback : γ) (program : κ) (calls : List (γ × List Byte)) :
    ∃ s, loggingHost.wlanApiRxProc (loggedCall act) (hwaddrAnswerFrame hwaddr)
        (hwaddrAnswerFrame hwaddr).length ⟨⟨wlanApiTypeGetHwaddr, some callback⟩, program, calls⟩ =
        some (s, 0) ∧
      s.calls = calls ++ [(callback, hwaddr.toList)] ∧ s.api.gsWlanApiStatus = wlanApiTypeFree := by
  have hlen := length_hwaddrAnswerFrame hwaddr
  have h12 : Buf.load (hwaddrAnswerFrame hwaddr) 12 = some 0xff := load_hwaddrAnswerFrame hwaddr 0
  have h13 : Buf.load (hwaddrAnswerFrame hwaddr) 13 = some 0xff := load_hwaddrAnswerFrame hwaddr 1
  have htype : Buf.load (hwaddrAnswerFrame hwaddr) offType = some wlanApiTypeGetHwaddrRet :=
    load_hwaddrAnswerFrame hwaddr 2
  have hroom : 6 ≤ ((hwaddrAnswerFrame hwaddr).drop offSrc).length := by
    rw [List.length_drop, hlen]
    decide
  have hbusy : wlanApiTypeGetHwaddr ≠ wlanApiTypeFree := by decide
  have hsize : isWlanApiFrameLen ((hwaddrAnswerFrame hwaddr).length : Int) = true := by
    rw [hlen]
    decide
  let after := act callback hwaddr.toList (⟨wlanApiTypeGetHwaddr, some callback⟩, program)
  refine ⟨⟨{ after.1 with gsWlanApiStatus := wlanApiTypeFree }, after.2,
    calls ++ [(callback, hwaddr.toList)]⟩, ?_, rfl, rfl⟩
  simp only [ApiHost.wlanApiRxProc, loggingHost, hbusy, hsize, isWlanApiFrame, h12, h13, htype,
      loggedCall, hroom, src_hwaddrAnswerFrame, Option.bind_eq_bind, Option.bind_some, if_true,
      if_false, Option.pure_def, decide_true, Bool.true_eq_false, and_self]
  rfl

/-- For every address, every credential state of the module and every content of the buffers: the
request of the PC makes the module send one reply and nothing else and leaves its globals as they
are; the PC decodes the reply, leaves every earlier frame that is no wlan API frame to lwIP, calls
the registered callback once with the six bytes of the address and is free again, so that the same
reply is not taken a second time. -/
theorem hwaddr_round_trip {γ κ : Type} (act : γ → List Byte → WlanApi γ × κ → WlanApi γ × κ)
    (pbufAlloc : Nat → (n : Nat) → Malloc n) (a : RelayState) (hlen : a.wlan.hwaddrLen = 6)
    (object : Vector Byte (sizeofDefault + 2)) (callback : γ) (api : WlanApi γ) (program : κ)
    (t : TxBuffer) (ht : t.gsTxPtr = 0) (slipOutBuffer : Vector Byte moduleBufSize)
    (pcSlipOutBuffer : Vector Byte pcBufSize) (earlier : List Buf)
    (hearlier : ∀ p ∈ earlier, ¬IsWlanApi p) :
    ∃ api' t' request reply answer s,
      wlanApiGetHwaddr bufferedUart (some object) (some callback) api t = some (api', t', 0) ∧
      t'.written = t.written ++ [request] ∧
      (slip2ipTaskProc pbufAlloc a slipOutBuffer request).turns = [(.wlanApi a.wlan reply, [])] ∧
      pcAccepted pcSlipOutBuffer reply = [answer] ∧
      rxFrames act (earlier ++ [answer, answer]) ⟨api', program, []⟩ =
        some (s, List.replicate earlier.length (-1) ++ [0, -1]) ∧
      s.calls = [(callback, a.wlan.hwaddr.toList)] ∧ s.api.gsWlanApiStatus = wlanApiTypeFree := by
  obtain ⟨t', hsend, -, hwritten⟩ := wlanApiGetHwaddr_buffered object (some callback) api t ht
  have hline : lineFrame getHwaddrFrame = slipCode.frame (sealPayload getHwaddrFrame) :=
    lineFrame_of_fits (by decide)
  rw [hline] at hwritten
  have hanswer : (sealPayload (hwaddrAnswerFrame a.wlan.hwaddr)).length ≤ pcBufSize := by
    rw [length_sealPayload, length_hwaddrAnswerFrame]
    decide
  obtain ⟨s, hrx, hcalls, hfree⟩ := rxProc_answer act a.wlan.hwaddr callback program []
  refine ⟨_, t', _, _, _, s, hsend, hwritten, relay_request pbufAlloc hlen slipOutBuffer,
    pcAccepted_frame pcSlipOutBuffer _ hanswer, ?_, hcalls, hfree⟩
  have hagain := loggingHost.wlanApiRxProc_free (loggedCall act) (hwaddrAnswerFrame a.wlan.hwaddr)
    (hwaddrAnswerFrame a.wlan.hwaddr).length hfree
  rw [rxFrames_passes act hearlier]
  simp only [rxFrames, hrx, hagain, Option.bind_eq_bind, Option.bind_some, Option.pure_def,
    Option.map_some]

/-- A module whose address has the bytes that SLIP reserves. -/
def slipModule : ModuleState :=
  { labModule with hwaddr := #v[slipEnd, slipEsc, slipEscEnd, slipEscEsc, 0, 0xff] }

def anyPbuf (_ n : Nat) : Malloc n := some (Vector.replicate n 0)

theorem hwaddr_round_trip_witness :
    ∃ api' t' request reply answer s,
      wlanApiGetHwaddr bufferedUart (some (Vector.replicate _ 0)) (some ()) ⟨wlanApiTypeFree, none⟩
        TxBuffer.init = some (api', t', 0) ∧
      t'.written = TxBuffer.init.written ++ [request] ∧
      (slip2ipTaskProc anyPbuf ⟨slipModule, 0⟩ (Vector.replicate _ 0) request).turns =
        [(.wlanApi slipModule reply, [])] ∧
      pcAccepted (Vector.replicate _ 0) reply = [answer] ∧
      rxFrames (fun _ _ s => s) ([[], [slipEnd]] ++ [answer, answer]) ⟨api', (), []⟩ =
        some (s, [-1, -1] ++ [0, -1]) ∧
      s.calls = [((), [slipEnd, slipEsc, slipEscEnd, slipEscEsc, 0, 0xff])] ∧
      s.api.gsWlanApiStatus = wlanApiTypeFree :=
  hwaddr_round_trip (fun _ _ s => s) anyPbuf ⟨slipModule, 0⟩ rfl (Vector.replicate _ 0) ()
    ⟨wlanApiTypeFree, none⟩ () TxBuffer.init rfl (Vector.replicate _ 0) (Vector.replicate _ 0)
    [[], [slipEnd]] (by decide)

end EthoSlip
