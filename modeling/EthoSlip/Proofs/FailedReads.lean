import EthoSlip.Model.RecvChar

/-!
# Failed reads

As long as `read()` delivers bytes, `recv_char` hands out exactly these. A `read()` that returns 0 or
-1 makes it return whatever stands at the front of `gs_rx_buff`.
-/

namespace EthoSlip

/-- The bytes `pending` are read and not yet handed out. -/
structure RxState.Holds (s : RxState) (pending : List Byte) : Prop where
  ptr_le : (s.gsRxPtr.toNat : Int) ≤ s.rxBufLen
  len_le : s.rxBufLen ≤ queueMaxNum
  bytes : (s.gsRxBuff.toList.take s.rxBufLen.toNat).drop s.gsRxPtr.toNat = pending

namespace RxState

variable {s : RxState} {pending : List Byte}

lemma holds_start (reads : List ReadResult) : (start reads).Holds [] where
  ptr_le := le_rfl
  len_le := Int.natCast_nonneg queueMaxNum
  bytes := rfl

lemma Holds.length_eq (h : s.Holds pending) :
    (pending.length : Int) = s.rxBufLen - s.gsRxPtr.toNat := by
  have hptr := h.ptr_le
  have hlen : s.rxBufLen ≤ 4000 := h.len_le
  rw [← h.bytes, List.length_drop, List.length_take, Vector.length_toList, queueMaxNum]
  omega

lemma Holds.exhausted_iff (h : s.Holds pending) : s.exhausted = true ↔ pending = [] := by
  have hptr := h.ptr_le
  have hlength := h.length_eq
  rw [exhausted, decide_eq_true_iff, ← List.length_eq_zero_iff]
  omega

lemma Holds.pop {c : Byte} (h : s.Holds (c :: pending)) :
    ∃ s', s.pop = .returned c s' ∧ s'.Holds pending ∧ s'.reads = s.reads := by
  have hlen : s.rxBufLen ≤ 4000 := h.len_le
  have hlength := h.length_eq
  rw [List.length_cons] at hlength
  have hptr : s.gsRxPtr.toNat < queueMaxNum := by
    rw [queueMaxNum]
    omega
  have hsucc : (s.gsRxPtr + 1).toNat = s.gsRxPtr.toNat + 1 := by
    rw [UInt16.toNat_add, UInt16.toNat_one]
    omega
  have hget : s.gsRxPtr.toNat < (s.gsRxBuff.toList.take s.rxBufLen.toNat).length := by
    rw [List.length_take, Vector.length_toList, queueMaxNum]
    omega
  have hbytes := h.bytes
  rw [List.drop_eq_getElem_cons hget, List.cons.injEq, List.getElem_take] at hbytes
  refine ⟨{ s with gsRxPtr := s.gsRxPtr + 1 }, ?_, ⟨?_, h.len_le, ?_⟩, rfl⟩
  · rw [RxState.pop, dif_pos hptr, ← hbytes.1]
    rfl
  · change ((s.gsRxPtr + 1).toNat : Int) ≤ s.rxBufLen
    omega
  · change (s.gsRxBuff.toList.take s.rxBufLen.toNat).drop (s.gsRxPtr + 1).toNat = pending
    rw [hsucc]
    exact hbytes.2

lemma holds_storeChunk (buff : Vector Byte queueMaxNum) (c : Chunk) (reads : List ReadResult) :
    Holds ⟨storeChunk buff c, 0, c.bytes.length, reads⟩ c.bytes where
  ptr_le := Int.natCast_nonneg _
  len_le := Int.ofNat_le.mpr c.length_le
  bytes := by
    change (Buf.overlay buff.toList c.bytes).take c.bytes.length = c.bytes
    exact Buf.take_overlay _ _

end RxState

section Call

variable {s : RxState} {pending : List Byte}

lemma recvChar_pending {c : Byte} (h : s.Holds (c :: pending)) :
    ∃ s', recvChar s = .returned c s' ∧ s'.Holds pending ∧ s'.reads = s.reads := by
  have hmore : ¬s.exhausted = true := by
    rw [h.exhausted_iff]
    exact List.cons_ne_nil c pending
  rw [recvChar, if_neg hmore]
  exact h.pop

lemma recvChar_waiting (h : s.Holds []) (hreads : s.reads = []) : recvChar s = .waiting := by
  rw [recvChar, if_pos (h.exhausted_iff.mpr rfl), RxState.refill, hreads]

lemma recvChar_chunk (h : s.Holds []) {c : Chunk} {reads : List ReadResult}
    (hreads : s.reads = .chunk c :: reads) :
    ∃ ch bs s', c.bytes = ch :: bs ∧ recvChar s = .returned ch s' ∧ s'.Holds bs ∧
      s'.reads = reads := by
  obtain ⟨ch, bs, hc⟩ := List.exists_cons_of_length_pos c.length_pos
  have hholds := RxState.holds_storeChunk s.gsRxBuff c reads
  rw [hc] at hholds
  obtain ⟨s', hpop, hs', hreads'⟩ := hholds.pop
  refine ⟨ch, bs, s', hc, ?_, hs', hreads'⟩
  rw [recvChar, if_pos (h.exhausted_iff.mpr rfl), RxState.refill, hreads]
  simp only [hc]
  exact hpop

/-- The byte that is returned after a failed `read()` is beyond what was read. -/
lemma recvChar_failed (h : s.Holds []) {r : ReadResult} {reads : List ReadResult}
    (hreads : s.reads = r :: reads) (hr : r.bytes = []) :
    ∃ ch s', recvChar s = .returned ch s' ∧ s'.rxBufLen < s'.gsRxPtr.toNat := by
  rw [recvChar, if_pos (h.exhausted_iff.mpr rfl), RxState.refill, hreads]
  cases r with
  | chunk c =>
    have hpos := c.length_pos
    change c.bytes = [] at hr
    rw [hr] at hpos
    exact absurd hpos (by decide)
  | endOfFile =>
    refine ⟨_, _, rfl, ?_⟩
    change (0 : Int) < ((0 + 1 : UInt16).toNat : Int)
    decide
  | error =>
    refine ⟨_, _, rfl, ?_⟩
    change (-1 : Int) < ((0 + 1 : UInt16).toNat : Int)
    decide

end Call

/-- The `read()` results that the calls from `s` to `s'` have met. -/
def RxState.performed (s s' : RxState) : List ReadResult :=
  s.reads.take (s.reads.length - s'.reads.length)

/-- The bytes that these calls of `read()` have stored. -/
def RxState.stored (s s' : RxState) : List Byte := (s.performed s').flatMap ReadResult.bytes

/-- A call that takes `s` to `s'` and returns `ch` while `pending` is read and not yet handed out:
`ch` is the next byte, its index is below the number of bytes last read, and the call after a failed
`read()` will try again. -/
structure HonestCall (pending : List Byte) (s : RxState) (ch : Byte) (s' : RxState) : Prop where
  next : (pending ++ s.stored s').head? = some ch
  index_lt : (s'.gsRxPtr.toNat : Int) ≤ s'.rxBufLen
  retry : ∀ r ∈ s.performed s', r.bytes = [] → s'.exhausted = true

/-- The first `n` calls from `s`, as far as they return. -/
def HonestRun : Nat → List Byte → RxState → Prop
  | 0, _, _ => True
  | n + 1, pending, s =>
    match recvChar s with
    | .waiting => True
    | .outOfBounds => False
    | .returned ch s' => HonestCall pending s ch s' ∧ HonestRun n (pending ++ s.stored s').tail s'

/-- The number of bytes in front of the first failed `read()`. -/
def bytesBeforeFailure : List ReadResult → Nat
  | [] => 0
  | .chunk c :: reads => c.bytes.length + bytesBeforeFailure reads
  | .endOfFile :: _ => 0
  | .error :: _ => 0

/-- No `read()` fails, or only behind the first `n` bytes. -/
def NoFailureWithin (n : Nat) (reads : List ReadResult) : Prop :=
  (∀ r ∈ reads, r.bytes ≠ []) ∨ n ≤ bytesBeforeFailure reads

lemma performed_self {s s' : RxState} (h : s'.reads = s.reads) : s.performed s' = [] := by
  rw [RxState.performed, h, Nat.sub_self, List.take_zero]

lemma performed_cons {s s' : RxState} {r : ReadResult} (h : s.reads = r :: s'.reads) :
    s.performed s' = [r] := by
  rw [RxState.performed, h, List.length_cons, Nat.add_sub_cancel_left]
  rfl

lemma Chunk.bytes_ne_nil (c : Chunk) : c.bytes ≠ [] := List.ne_nil_of_length_pos c.length_pos

lemma exists_chunk {r : ReadResult} (hr : r.bytes ≠ []) : ∃ c, r = .chunk c := by
  cases r with
  | chunk c => exact ⟨c, rfl⟩
  | endOfFile => exact absurd rfl hr
  | error => exact absurd rfl hr

/-! What the first call does to a run. -/

section FirstCall

variable {s : RxState} (n : Nat)

lemma honestRun_pending {c : Byte} {pending : List Byte} (h : s.Holds (c :: pending)) :
    ∃ s', s'.Holds pending ∧ s'.reads = s.reads ∧
      (HonestRun (n + 1) (c :: pending) s ↔ HonestRun n pending s') := by
  obtain ⟨s', hcall, hs', hreads⟩ := recvChar_pending h
  have hperformed := performed_self hreads
  have hstored : s.stored s' = [] := by rw [RxState.stored, hperformed, List.flatMap_nil]
  have hhonest : HonestCall (c :: pending) s c s' := by
    refine ⟨?_, hs'.ptr_le, ?_⟩
    · rw [hstored]
      rfl
    · rw [hperformed]
      simp
  refine ⟨s', hs', hreads, ?_⟩
  rw [HonestRun, hcall]
  simp only [hstored, List.append_nil, List.tail_cons]
  exact ⟨fun hrun => hrun.2, fun hrun => ⟨hhonest, hrun⟩⟩

lemma honestRun_chunk (h : s.Holds []) {c : Chunk} {reads : List ReadResult}
    (hreads : s.reads = .chunk c :: reads) :
    ∃ bs s', c.bytes.length = bs.length + 1 ∧ s'.Holds bs ∧ s'.reads = reads ∧
      (HonestRun (n + 1) [] s ↔ HonestRun n bs s') := by
  obtain ⟨ch, bs, s', hc, hcall, hs', hreads'⟩ := recvChar_chunk h hreads
  have hperformed : s.performed s' = [.chunk c] := performed_cons (by rw [hreads, hreads'])
  have hstored : s.stored s' = ch :: bs := by
    rw [RxState.stored, hperformed, ← hc]
    exact List.append_nil _
  have hhonest : HonestCall [] s ch s' := by
    refine ⟨?_, hs'.ptr_le, ?_⟩
    · rw [hstored]
      rfl
    · intro r hmem hr
      rw [hperformed, List.mem_singleton] at hmem
      rw [hmem] at hr
      exact absurd hr c.bytes_ne_nil
  refine ⟨bs, s', by rw [hc, List.length_cons], hs', hreads', ?_⟩
  rw [HonestRun, hcall]
  simp only [hstored, List.nil_append, List.tail_cons]
  exact ⟨fun hrun => hrun.2, fun hrun => ⟨hhonest, hrun⟩⟩

lemma not_honestRun_failed (h : s.Holds []) {r : ReadResult} {reads : List ReadResult}
    (hreads : s.reads = r :: reads) (hr : r.bytes = []) : ¬HonestRun (n + 1) [] s := by
  obtain ⟨ch, s', hcall, hindex⟩ := recvChar_failed h hreads hr
  rw [HonestRun, hcall]
  rintro ⟨hhonest, -⟩
  have hle := hhonest.index_lt
  omega

lemma honestRun_waiting (h : s.Holds []) (hreads : s.reads = []) : HonestRun (n + 1) [] s := by
  rw [HonestRun, recvChar_waiting h hreads]
  trivial

end FirstCall

/-! What it does to the condition. -/

lemma noFailureWithin_zero (reads : List ReadResult) : NoFailureWithin 0 reads := .inr (Nat.zero_le _)

lemma noFailureWithin_nil (n : Nat) : NoFailureWithin n [] := by
  left
  simp

lemma noFailureWithin_chunk (n : Nat) (c : Chunk) (reads : List ReadResult) :
    NoFailureWithin n (.chunk c :: reads) ↔ NoFailureWithin (n - c.bytes.length) reads := by
  have hc : (ReadResult.chunk c).bytes ≠ [] := c.bytes_ne_nil
  unfold NoFailureWithin
  rw [List.forall_mem_cons, bytesBeforeFailure]
  constructor
  · rintro (h | h)
    · exact .inl h.2
    · exact .inr (by omega)
  · rintro (h | h)
    · exact .inl ⟨hc, h⟩
    · exact .inr (by omega)

lemma not_noFailureWithin_failed (n : Nat) {r : ReadResult} (hr : r.bytes = [])
    (reads : List ReadResult) : ¬NoFailureWithin (n + 1) (r :: reads) := by
  rintro (h | h)
  · exact h r (by simp) hr
  · cases r with
    | chunk c => exact c.bytes_ne_nil hr
    | endOfFile => simp [bytesBeforeFailure] at h
    | error => simp [bytesBeforeFailure] at h

lemma honestRun_iff (n : Nat) {s : RxState} {pending : List Byte} (h : s.Holds pending) :
    HonestRun n pending s ↔ NoFailureWithin (n - pending.length) s.reads := by
  induction n generalizing s pending with
  | zero =>
    rw [Nat.zero_sub]
    exact ⟨fun _ => noFailureWithin_zero _, fun _ => trivial⟩
  | succ n ih =>
    cases pending with
    | cons c pending =>
      obtain ⟨s', hs', hreads, hrun⟩ := honestRun_pending n h
      rw [hrun, ih hs', hreads, List.length_cons, Nat.add_sub_add_right]
    | nil =>
      rw [List.length_nil, Nat.sub_zero]
      cases hreads : s.reads with
      | nil => exact ⟨fun _ => noFailureWithin_nil _, fun _ => honestRun_waiting n h hreads⟩
      | cons r reads =>
        by_cases hr : r.bytes = []
        · exact iff_of_false (not_honestRun_failed n h hreads hr)
            (not_noFailureWithin_failed n hr reads)
        · obtain ⟨c, rfl⟩ := exists_chunk hr
          obtain ⟨bs, s', hlen, hs', hreads', hrun⟩ := honestRun_chunk n h hreads
          rw [hrun, ih hs', hreads', noFailureWithin_chunk, hlen, Nat.add_sub_add_right]

/-- A run of `n` calls of `recv_char` from program start hands out received bytes only, in order and
once each, with every index below the number of bytes last read and a new `read()` after a failed
one, if and only if no `read()` fails in front of the `n`-th byte. -/
theorem recv_char_honest_iff (reads : List ReadResult) (n : Nat) :
    HonestRun n [] (.start reads) ↔ NoFailureWithin n reads := by
  have hrun := honestRun_iff n (RxState.holds_start reads)
  rw [List.length_nil, Nat.sub_zero] at hrun
  exact hrun

/-- One byte and then a `read()` that returns -1: the second call returns the byte again. -/
theorem stale_byte_returned : ¬∀ reads n, HonestRun n [] (.start reads) := by
  intro h
  have hrun := h [.chunk ⟨[1], by decide, by decide⟩, .error] 2
  rw [honestRun_iff 2 (RxState.holds_start _)] at hrun
  rcases hrun with hrun | hrun
  · exact hrun .error (by decide) rfl
  · exact absurd hrun (by decide)

end EthoSlip
