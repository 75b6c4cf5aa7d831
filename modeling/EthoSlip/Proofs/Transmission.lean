import EthoSlip.Proofs.Sender

/-!
# Buffered and direct transmission

What the PC writes for a packet is the beginning of what `send_packet` emits over a UART that passes
every byte on: 4000 bytes of it, whatever was sent before.
-/

namespace EthoSlip
open Lib

/-- The index has stayed in the buffer, or right behind its end. -/
structure Watched (t : TxBuffer × List Nat) (u : TxBuffer) : Prop where
  state : t.1 = u
  ptr_le : u.gsTxPtr ≤ queueMaxNum
  log_le : ∀ ptr ∈ t.2, ptr ≤ queueMaxNum

section Watched

variable {t : TxBuffer × List Nat} {u u' : TxBuffer}

lemma TxBuffer.sendChar_ptr_le (c : Byte) (h : u.gsTxPtr ≤ queueMaxNum) :
    (TxBuffer.sendChar c u).gsTxPtr ≤ queueMaxNum := by
  unfold TxBuffer.sendChar
  by_cases hlt : u.gsTxPtr < queueMaxNum
  · rw [dif_pos hlt]
    exact hlt
  · rw [dif_neg hlt]
    exact h

/-- Any call that leaves the index in range adds an index in range to the log. -/
lemma Watched.next (h : Watched t u) (hle : u'.gsTxPtr ≤ queueMaxNum) :
    Watched (u', t.2 ++ [u'.gsTxPtr]) u' where
  state := rfl
  ptr_le := hle
  log_le := by
    intro ptr hptr
    rcases List.mem_append.mp hptr with hptr | hptr
    · exact h.log_le ptr hptr
    · rw [List.mem_singleton.mp hptr]
      exact hle

lemma Watched.sendPacket (h : Watched t u) (p : List Byte)
    (hu : sendPacket bufferedUart p p.length u = some u') :
    ∃ t', sendPacket watchedUart p p.length t = some t' ∧ Watched t' u' := by
  apply sendPacket_rel _ _ h hu
  · intro c ⟨u₁, log⟩ u₂ h
    obtain rfl : u₁ = u₂ := h.state
    exact h.next (TxBuffer.sendChar_ptr_le c h.ptr_le)
  · intro ⟨u₁, log⟩ u₂ h
    obtain rfl : u₁ = u₂ := h.state
    exact h.next (Nat.zero_le _)

end Watched

lemma sendPackets_buffered (packets : List (List Byte)) (t : TxBuffer) (h : t.gsTxPtr = 0) :
    ∃ t', sendPackets bufferedUart packets t = some t' ∧ t'.gsTxPtr = 0 ∧
      t'.written = t.written ++ packets.map (fun p => (slipCode.frame p).take queueMaxNum) := by
  induction packets generalizing t with
  | nil => exact ⟨t, rfl, h, by simp⟩
  | cons p packets ih =>
    obtain ⟨t₁, hp, h₁, hw₁⟩ := sendPacket_buffered p t h
    obtain ⟨t', hpackets, h', hw⟩ := ih t₁ h₁
    refine ⟨t', ?_, h', ?_⟩
    · rw [sendPackets, run_cons, hp, Option.bind_some]
      exact hpackets
    · rw [hw, hw₁, List.map_cons, List.append_assoc]
      rfl

lemma sendPackets_direct (packets : List (List Byte)) (line : List Byte) :
    sendPackets directUart packets line = some (line ++ (packets.map slipCode.frame).flatten) := by
  induction packets generalizing line with
  | nil => simp [sendPackets]
  | cons p packets ih =>
    rw [sendPackets, run_cons, sendPacket_direct, Option.bind_some]
    change sendPackets directUart packets _ = _
    rw [ih, List.append_assoc, List.map_cons, List.flatten_cons]

lemma take_frame_eq_iff (p : List Byte) :
    (slipCode.frame p).take queueMaxNum = slipCode.frame p ↔
      2 + p.length + p.countP (fun c => c = slipEnd ∨ c = slipEsc) ≤ queueMaxNum := by
  have hlen : (slipCode.frame p).length =
      2 + p.length + p.countP (fun c => c = slipEnd ∨ c = slipEsc) := by
    rw [StuffingCode.frame, List.length_cons, List.length_append, length_stuff, encodedLength,
      List.length_singleton]
    omega
  rw [List.take_eq_self_iff, hlen]

/-- For every list of packets the PC gives `write()` the first 4000 bytes of what is emitted
directly for each packet. The index of the buffer stays within 4000 after every call and is 0 at the
end. The two are the same for the packets that fit. -/
theorem buffered_matches_direct (packets : List (List Byte)) (t : TxBuffer) (ht : t.gsTxPtr = 0)
    (line : List Byte) :
    (∃ t' log direct,
      sendPackets bufferedUart packets t = some t' ∧
      sendPackets watchedUart packets (t, []) = some (t', log) ∧
      packets.mapM (fun p => sendPacket directUart p p.length []) = some direct ∧
      sendPackets directUart packets line = some (line ++ direct.flatten) ∧
      t'.written = t.written ++ direct.map (List.take 4000) ∧
      t'.gsTxPtr = 0 ∧ ∀ ptr ∈ log, ptr ≤ 4000) ∧
    ∀ p : List Byte, ∃ direct, sendPacket directUart p p.length [] = some direct ∧
      (direct.take 4000 = direct ↔
        2 + p.length + p.countP (fun c => c = slipEnd ∨ c = slipEsc) ≤ 4000) := by
  have hdirect (p : List Byte) : sendPacket directUart p p.length [] = some (slipCode.frame p) :=
    sendPacket_direct p []
  constructor
  · obtain ⟨t', hbuffered, hptr, hw⟩ := sendPackets_buffered packets t ht
    have hstart : Watched (t, []) t := ⟨rfl, by rw [ht]; exact Nat.zero_le _, by simp⟩
    obtain ⟨⟨u, log⟩, hwatched, rfl, -, hlog⟩ :=
      run_simulated (fun s u p u' h hu => h.sendPacket p hu) hstart hbuffered
    refine ⟨u, log, packets.map slipCode.frame, hbuffered, hwatched, ?_,
      sendPackets_direct packets line, ?_, hptr, hlog⟩
    · simp only [hdirect]
      exact List.mapM_pure
    · rw [hw, List.map_map]
      rfl
  · intro p
    exact ⟨slipCode.frame p, hdirect p, take_frame_eq_iff p⟩

/-- Two packets from program start, the first with a byte that is escaped. -/
theorem buffered_matches_direct_witness :
    ∃ t', sendPackets bufferedUart [[slipEnd], [7]] .init = some t' ∧ t'.gsTxPtr = 0 ∧
      t'.written = [[slipEnd, slipEsc, slipEscEnd, slipEnd], [slipEnd, 7, slipEnd]] := by
  obtain ⟨⟨t', log, direct, hbuffered, -, hdirect, -, hw, hptr, -⟩, -⟩ :=
    buffered_matches_direct [[slipEnd], [7]] .init rfl []
  have hbytes : direct = [[slipEnd, slipEsc, slipEscEnd, slipEnd], [slipEnd, 7, slipEnd]] :=
    Option.some.inj (hdirect.symm.trans (by decide))
  rw [hbytes] at hw
  exact ⟨t', hbuffered, hptr, hw⟩

end EthoSlip
