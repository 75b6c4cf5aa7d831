import EthoSlip.Proofs.Checksum

/-!
# The buffered sender

The PC's `send_char` keeps the first 4000 bytes of a packet and drops the others, closing END
included. The TAP loop therefore puts the first 4000 bytes of each frame on the line, whatever it
has sent before.
-/

namespace EthoSlip
open Lib

section Simulation

variable {τ τ' : Type} {u : ByteSink τ} {v : ByteSink τ'} {R : τ → τ' → Prop}

lemma sendByte_rel (hR : ∀ c t x, R t x → R (u.sendChar c t) (v.sendChar c x)) (c : Byte) (t : τ)
    (x : τ') (h : R t x) : R (sendByte u c t) (sendByte v c x) := by
  unfold sendByte
  split_ifs
  · exact hR _ _ _ (hR _ _ _ h)
  · exact hR _ _ _ (hR _ _ _ h)
  · exact hR _ _ _ h

lemma sendLoop_rel (hR : ∀ c t x, R t x → R (u.sendChar c t) (v.sendChar c x)) (len : Nat) (p : Buf)
    (t : τ) (x : τ') (h : R t x) (x' : τ') (hx : sendLoop v len p x = some x') :
    ∃ t', sendLoop u len p t = some t' ∧ R t' x' := by
  induction len generalizing p t x with
  | zero =>
    rw [sendLoop, Option.some.injEq] at hx
    subst hx
    exact ⟨t, rfl, h⟩
  | succ len ih =>
    cases p with
    | nil => simp [sendLoop] at hx
    | cons c p => exact ih p _ _ (sendByte_rel hR c t x h) hx

lemma sendPacket_rel (hR : ∀ c t x, R t x → R (u.sendChar c t) (v.sendChar c x))
    (hdo : ∀ t x, R t x → R (u.sendCharDo t) (v.sendCharDo x)) {p : Buf} {len : Nat} {t : τ} {x : τ'}
    (h : R t x) {x' : τ'} (hx : sendPacket v p len x = some x') :
    ∃ t', sendPacket u p len t = some t' ∧ R t' x' := by
  unfold sendPacket at hx
  obtain ⟨x₁, hloop, rfl⟩ := Option.map_eq_some_iff.mp hx
  obtain ⟨t₁, ht₁, h₁⟩ := sendLoop_rel hR len p _ _ (hR slipEnd t x h) x₁ hloop
  refine ⟨u.sendCharDo (u.sendChar slipEnd t₁), ?_, ?_⟩
  · rw [sendPacket, ht₁, Option.map_some]
  · exact hdo _ _ (hR slipEnd t₁ x₁ h₁)

end Simulation

lemma sendLoop_append {τ : Type} (uart : ByteSink τ) (f p : List Byte) (t : τ) :
    sendLoop uart f.length (f ++ p) t = sendLoop uart f.length f t := by
  induction f generalizing t with
  | nil => rw [List.length_nil, sendLoop, sendLoop]
  | cons c f ih => exact ih _

lemma sendPacket_overlay {τ : Type} (uart : ByteSink τ) (p : Buf) (f : List Byte) (t : τ) :
    sendPacket uart (p.overlay f) f.length t = sendPacket uart f f.length t := by
  rw [sendPacket, Buf.overlay, sendLoop_append, sendPacket]

/-- The buffer after the bytes `xs` were given to `send_char`: it holds the first of them. -/
structure TxBuffer.Holds (t : TxBuffer) (xs : List Byte) : Prop where
  ptr : t.gsTxPtr = (xs.take queueMaxNum).length
  bytes : t.gsTxBuff.toList.take t.gsTxPtr = xs.take queueMaxNum

lemma TxBuffer.holds_nil (t : TxBuffer) (h : t.gsTxPtr = 0) : t.Holds [] := ⟨by simp [h], by simp [h]⟩

lemma TxBuffer.Holds.sendChar {t : TxBuffer} {xs : List Byte} (h : t.Holds xs) (c : Byte) :
    (TxBuffer.sendChar c t).Holds (xs ++ [c]) := by
  have hptr := h.ptr
  rw [List.length_take] at hptr
  unfold TxBuffer.sendChar
  by_cases hlt : t.gsTxPtr < queueMaxNum
  · have hall : xs.take queueMaxNum = xs := List.take_of_length_le (by omega)
    have hlen : xs.length = t.gsTxPtr := by omega
    have hall' : (xs ++ [c]).take queueMaxNum = xs ++ [c] :=
      List.take_of_length_le (by simp; omega)
    have hbytes := h.bytes
    rw [hall] at hbytes
    rw [dif_pos hlt]
    refine ⟨by simp [hall', hlen], ?_⟩
    have hset : t.gsTxPtr < (t.gsTxBuff.set t.gsTxPtr c hlt).toList.length := by simpa using hlt
    rw [hall', List.take_succ_eq_append_getElem hset]
    simp only [Vector.toList_set, List.getElem_set_self]
    rw [List.take_set_of_le le_rfl, hbytes]
  · have hall : (xs ++ [c]).take queueMaxNum = xs.take queueMaxNum :=
      List.take_append_of_le_length (by omega)
    rw [dif_neg hlt]
    exact ⟨by rw [hall]; exact h.ptr, by rw [hall]; exact h.bytes⟩

@[simp] lemma TxBuffer.sendChar_written (c : Byte) (t : TxBuffer) :
    (TxBuffer.sendChar c t).written = t.written := by
  unfold TxBuffer.sendChar
  split <;> rfl

/-- A packet is handed to `write()` as the first 4000 bytes of its frame, and leaves the buffer
empty for the next one. -/
theorem sendPacket_buffered (p : List Byte) (t : TxBuffer) (h : t.gsTxPtr = 0) :
    ∃ t', sendPacket bufferedUart p p.length t = some t' ∧ t'.gsTxPtr = 0 ∧
      t'.written = t.written ++ [(slipCode.frame p).take queueMaxNum] := by
  let R := fun (u : TxBuffer) (xs : List Byte) => u.Holds xs ∧ u.written = t.written
  have hR : ∀ c u xs, R u xs → R (bufferedUart.sendChar c u) (directUart.sendChar c xs) :=
    fun c u xs hu => ⟨hu.1.sendChar c, (u.sendChar_written c).trans hu.2⟩
  have hstart : R (bufferedUart.sendChar slipEnd t) [slipEnd] :=
    hR slipEnd t [] ⟨t.holds_nil h, rfl⟩
  obtain ⟨t₁, hloop, hend⟩ := sendLoop_rel hR p.length p _ _ hstart _ (sendLoop_direct p [slipEnd])
  have hclose := hR slipEnd _ _ hend
  refine ⟨_, by rw [sendPacket, hloop, Option.map_some], rfl, ?_⟩
  have hframe : directUart.sendChar slipEnd ([slipEnd] ++ slipCode.stuff p) = slipCode.frame p := by
    simp [directUart, StuffingCode.frame]
  rw [hframe] at hclose
  change (bufferedUart.sendChar slipEnd t₁).written ++ _ = _
  rw [hclose.2, hclose.1.bytes]

/-- What the line carries for one payload. -/
def lineFrame (payload : List Byte) : List Byte :=
  (slipCode.frame (sealPayload payload)).take queueMaxNum

def lineOf (payloads : List (List Byte)) : List Byte := payloads.flatMap lineFrame

@[simp] lemma lineOf_nil : lineOf [] = [] := rfl

@[simp] lemma lineOf_cons (q : List Byte) (qs : List (List Byte)) :
    lineOf (q :: qs) = lineFrame q ++ lineOf qs := rfl

@[simp] lemma lineOf_append (qs qs' : List (List Byte)) :
    lineOf (qs ++ qs') = lineOf qs ++ lineOf qs' := by
  simp [lineOf]

/-- A payload that fits the frame buffer of the PC together with its trailer. -/
def FitsTap (payload : List Byte) : Prop := payload.length ≤ 3998

instance (payload : List Byte) : Decidable (FitsTap payload) :=
  inferInstanceAs (Decidable (_ ≤ _))

lemma tapTurn_eq (q : List Byte) (hq : FitsTap q) (t : TapState)
    (hbuf : t.tunOutBuffer.length = pcBufSize) (hptr : t.uart.gsTxPtr = 0) :
    ∃ t', tapTurn q t = some t' ∧ t'.tunOutBuffer.length = pcBufSize ∧ t'.uart.gsTxPtr = 0 ∧
      t'.uart.written = t.uart.written ++ [lineFrame q] := by
  unfold FitsTap at hq
  have hbuf' : t.tunOutBuffer.length = 4000 := hbuf
  have htake : q.take pcBufSize = q := List.take_of_length_le (by simp only [pcBufSize]; omega)
  have hcalc := ifApiCalculateChecksum_overlay t.tunOutBuffer q (by omega)
  obtain ⟨u, hsend, hu, hw⟩ := sendPacket_buffered (sealPayload q) t.uart hptr
  rw [← sendPacket_overlay bufferedUart t.tunOutBuffer, length_sealPayload] at hsend
  refine ⟨⟨t.tunOutBuffer.overlay (sealPayload q), u⟩, ?_, ?_, hu, hw⟩
  · simp only [tapTurn, htake, hcalc, hsend, Option.bind_eq_bind, Option.bind_some, Option.pure_def]
  · rw [Buf.length_overlay _ _ (by simp; omega), hbuf]

lemma tapLoop_eq (qs : List (List Byte)) (hqs : ∀ q ∈ qs, FitsTap q) (t : TapState)
    (hbuf : t.tunOutBuffer.length = pcBufSize) (hptr : t.uart.gsTxPtr = 0) :
    ∃ t', tapLoop qs t = some t' ∧
      t'.uart.written.flatten = t.uart.written.flatten ++ lineOf qs := by
  induction qs generalizing t with
  | nil => exact ⟨t, rfl, by simp⟩
  | cons q qs ih =>
    obtain ⟨t₁, hturn, hbuf₁, hptr₁, hw₁⟩ := tapTurn_eq q (hqs q (by simp)) t hbuf hptr
    obtain ⟨t₂, hloop, hw₂⟩ := ih (fun q' hq' => hqs q' (by simp [hq'])) t₁ hbuf₁ hptr₁
    refine ⟨t₂, by simp only [tapLoop, hturn, Option.bind_eq_bind, Option.bind_some, hloop], ?_⟩
    rw [hw₂, hw₁]
    simp

/-- The TAP loop never leaves its buffers, and writes the first 4000 bytes of the frame of each
sealed payload. -/
theorem sentLine_eq (qs : List (List Byte)) (hqs : ∀ q ∈ qs, FitsTap q) :
    (tapLoop qs .init).isSome ∧ sentLine qs = lineOf qs := by
  obtain ⟨t, hloop, hw⟩ := tapLoop_eq qs hqs .init (List.length_replicate ..) rfl
  refine ⟨by rw [hloop]; rfl, ?_⟩
  simp only [sentLine, hloop, hw]
  rfl

end EthoSlip
