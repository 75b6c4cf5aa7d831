import EthoSlip.Proofs.FailedReads
import EthoSlip.Model.Slip

/-!
# Reception in chunks

Over the buffered `recv_char` the bytes that are not yet handed out are those left in `gs_rx_buff`
and those of the chunks to come. A call takes the first of them, as the one-byte `recv_char` does, so
that `recv_packet` cannot tell the two apart.
-/

namespace EthoSlip

def RecvResult.map {σ σ' : Type} (f : σ → σ') : RecvResult σ → RecvResult σ'
  | .returned received p rest => .returned received p (f rest)
  | .waiting received p escaped => .waiting received p escaped
  | .outOfBounds => .outOfBounds

def Session.map {σ σ' α β : Type} (f : σ → σ') (run : Session σ α β) : Session σ' α β :=
  ⟨run.turns.map (fun turn => (turn.1, f turn.2)), run.stop⟩

/-- `f` shows what is left to read in one source as a state of the other. -/
structure ByteSource.Shows {σ σ' : Type} (src : ByteSource σ) (f : σ → σ') (src' : ByteSource σ') :
    Prop where
  recvChar : ∀ s, src'.recvChar (f s) = (src.recvChar s).map (fun r => (r.1, f r.2))
  avail : ∀ s, src'.avail (f s) = src.avail s

namespace ByteSource.Shows

variable {σ σ' α β : Type} {src : ByteSource σ} {f : σ → σ'} {src' : ByteSource σ'}

lemma recvLoop (h : src.Shows f src') (len fuel : Nat) (p : Buf) (received : Nat) (s : σ) :
    EthoSlip.recvLoop src' len fuel p received (f s) =
      (EthoSlip.recvLoop src len fuel p received s).map f := by
  induction fuel generalizing p received s with
  | zero => rfl
  | succ fuel ih =>
    simp only [EthoSlip.recvLoop, h.recvChar]
    cases src.recvChar s with
    | none => rfl
    | some cs =>
      obtain ⟨c, s₁⟩ := cs
      simp only [Option.map_some]
      split_ifs with hend hpos hesc
      · rfl
      · exact ih p received s₁
      · rw [h.recvChar]
        cases src.recvChar s₁ with
        | none => rfl
        | some cs =>
          obtain ⟨c', s₂⟩ := cs
          simp only [Option.map_some]
          cases recvStore len p received (unstuffByte c') with
          | none => rfl
          | some pr => exact ih pr.1 pr.2 s₂
      · cases recvStore len p received c with
        | none => rfl
        | some pr => exact ih pr.1 pr.2 s₁

lemma recvPacket (h : src.Shows f src') (len : Nat) (p : Buf) (s : σ) :
    EthoSlip.recvPacket src' len p (f s) = (EthoSlip.recvPacket src len p s).map f := by
  rw [EthoSlip.recvPacket, EthoSlip.recvPacket, h.avail]
  exact h.recvLoop len _ p 0 s

lemma serveLoop (h : src.Shows f src') (len : Nat) (body : α → Buf → Nat → Option (α × Buf × β))
    (fuel : Nat) (a : α) (p : Buf) (s : σ) :
    EthoSlip.serveLoop src' len body fuel a p (f s) =
      (EthoSlip.serveLoop src len body fuel a p s).map f := by
  induction fuel generalizing a p s with
  | zero => rfl
  | succ fuel ih =>
    simp only [EthoSlip.serveLoop, h.recvPacket]
    cases EthoSlip.recvPacket src len p s with
    | waiting received p' escaped => rfl
    | outOfBounds => rfl
    | returned received p' rest =>
      simp only [RecvResult.map]
      cases body a p' received with
      | none => rfl
      | some r =>
        obtain ⟨a', p'', b⟩ := r
        simp only [ih a' p'' rest]
        rfl

/-- A receiving task does the same over both sources. -/
theorem serve (h : src.Shows f src') (len : Nat) (body : α → Buf → Nat → Option (α × Buf × β))
    (a : α) (p : Buf) (s : σ) :
    EthoSlip.serve src' len body a p (f s) = (EthoSlip.serve src len body a p s).map f := by
  rw [EthoSlip.serve, EthoSlip.serve, h.avail]
  exact h.serveLoop len body _ a p s

end ByteSource.Shows

/-- The buffer is in order, and every `read()` to come succeeds. -/
structure RxState.Reading (s : RxState) : Prop where
  holds : ∃ pending, s.Holds pending
  succeeds : ∀ r ∈ s.reads, r.bytes ≠ []

/-- What is read and not handed out, followed by what is still to be read. -/
def RxState.unread (s : RxState) : List Byte :=
  (s.gsRxBuff.toList.take s.rxBufLen.toNat).drop s.gsRxPtr.toNat ++ s.reads.flatMap ReadResult.bytes

lemma RxState.Holds.unread {s : RxState} {pending : List Byte} (h : s.Holds pending) :
    s.unread = pending ++ s.reads.flatMap ReadResult.bytes := by
  rw [RxState.unread, h.bytes]

/-- A call of `recv_char` takes the first unread byte. -/
lemma recvChar_unread {s : RxState} (h : s.Reading) :
    (s.unread = [] ∧ recvChar s = .waiting) ∨
      ∃ c s', s.unread = c :: s'.unread ∧ recvChar s = .returned c s' ∧ s'.Reading := by
  obtain ⟨pending, hholds⟩ := h.holds
  cases pending with
  | cons c pending =>
    obtain ⟨s', hcall, hs', hreads⟩ := recvChar_pending hholds
    refine .inr ⟨c, s', ?_, hcall, ⟨⟨pending, hs'⟩, ?_⟩⟩
    · rw [hholds.unread, hs'.unread, hreads, List.cons_append]
    · rw [hreads]
      exact h.succeeds
  | nil =>
    have hunread := hholds.unread
    rw [List.nil_append] at hunread
    cases hreads : s.reads with
    | nil =>
      refine .inl ⟨?_, recvChar_waiting hholds hreads⟩
      rw [hunread, hreads, List.flatMap_nil]
    | cons r reads =>
      have hsucceeds := h.succeeds
      rw [hreads, List.forall_mem_cons] at hsucceeds
      obtain ⟨c, rfl⟩ := exists_chunk hsucceeds.1
      obtain ⟨ch, bs, s', hc, hcall, hs', hreads'⟩ := recvChar_chunk hholds hreads
      refine .inr ⟨ch, s', ?_, hcall, ⟨⟨bs, hs'⟩, ?_⟩⟩
      · rw [hunread, hs'.unread, hreads, hreads', List.flatMap_cons, ReadResult.bytes, hc,
          List.cons_append]
      · rw [hreads']
        exact hsucceeds.2

/-- A state of the receive side as long as no `read()` fails. -/
abbrev ReadingState := { s : RxState // s.Reading }

/-- `recv_char`, which always returns or waits in such a state (`recvChar_unread`). -/
def ReadingState.recvChar (s : ReadingState) : Option (Byte × ReadingState) :=
  match h : EthoSlip.recvChar s.1 with
  | .returned c s' => some (c, ⟨s', by
      obtain ⟨-, hwaiting⟩ | ⟨_, _, -, hcall, hs'⟩ := recvChar_unread s.2
      · rw [hwaiting] at h
        cases h
      · rw [hcall] at h
        cases h
        exact hs'⟩)
  | .waiting => none
  | .outOfBounds => none

lemma ReadingState.recvChar_none {s : ReadingState} (h : EthoSlip.recvChar s.1 = .waiting) :
    s.recvChar = none := by
  unfold ReadingState.recvChar
  split
  · rename_i hcall
    rw [h] at hcall
    cases hcall
  · rfl
  · rfl

lemma ReadingState.recvChar_some {s : ReadingState} {c : Byte} {s' : RxState}
    (h : EthoSlip.recvChar s.1 = .returned c s') (hs' : s'.Reading) :
    s.recvChar = some (c, ⟨s', hs'⟩) := by
  unfold ReadingState.recvChar
  split
  · rename_i hcall
    rw [h] at hcall
    cases hcall
    rfl
  · rename_i hcall
    rw [h] at hcall
    cases hcall
  · rename_i hcall
    rw [h] at hcall
    cases hcall

/-- Either source takes the first of the unread bytes. -/
lemma ReadingState.recvChar_line (s : ReadingState) :
    lineSource.recvChar s.1.unread = s.recvChar.map (fun r => (r.1, r.2.1.unread)) := by
  obtain ⟨hunread, hcall⟩ | ⟨c, s', hunread, hcall, hs'⟩ := recvChar_unread s.2
  · rw [hunread, recvChar_none hcall]
    rfl
  · rw [hunread, recvChar_some hcall hs']
    rfl

/-- `recv_char` of the PC programs, as they are built. -/
def bufferedSource : ByteSource ReadingState where
  recvChar := ReadingState.recvChar
  avail := fun s => s.1.unread.length
  avail_recvChar := by
    intro s c s' h
    have hline := s.recvChar_line
    rw [h, Option.map_some] at hline
    exact lineSource.avail_recvChar _ _ _ hline

lemma bufferedSource_shows : bufferedSource.Shows (fun s => s.1.unread) lineSource where
  recvChar := ReadingState.recvChar_line
  avail := fun _ => rfl

/-- Program start, with a stream that arrives in these chunks. -/
def startChunks (chunks : List Chunk) : ReadingState :=
  ⟨.start (chunks.map ReadResult.chunk), ⟨⟨[], RxState.holds_start _⟩, by
    intro r hr
    obtain ⟨c, -, rfl⟩ := List.mem_map.mp hr
    exact c.bytes_ne_nil⟩⟩

lemma unread_startChunks (chunks : List Chunk) :
    (startChunks chunks).1.unread = chunks.flatMap Chunk.bytes := by
  have hunread := (RxState.holds_start (chunks.map ReadResult.chunk)).unread
  rw [List.nil_append] at hunread
  calc (startChunks chunks).1.unread
      = (chunks.map ReadResult.chunk).flatMap ReadResult.bytes := hunread
    _ = chunks.flatMap Chunk.bytes := List.flatMap_map ..

/-- However a stream is cut into `read()` results of 1 to 4000 bytes, repeated `recv_packet` calls
over the buffered `recv_char` return the same frames as over the one-byte `recv_char`, each with the
same bytes left unread, and stop at the same point. No byte is skipped or returned twice: at every
call `recv_char` returns the first unread byte and leaves the others. -/
theorem chunked_reception (chunks : List Chunk) (cap : Nat) (buf : Buf) :
    recvPackets lineSource cap buf (chunks.flatMap Chunk.bytes) =
        (recvPackets bufferedSource cap buf (startChunks chunks)).map (fun s => s.1.unread) ∧
      ∀ s : ReadingState, (s.1.unread = [] ∧ recvChar s.1 = .waiting) ∨
        ∃ c s', s.1.unread = c :: s'.unread ∧ recvChar s.1 = .returned c s' ∧ s'.Reading := by
  constructor
  · rw [← unread_startChunks]
    exact bufferedSource_shows.serve cap _ () buf (startChunks chunks)
  · intro s
    exact recvChar_unread s.2

end EthoSlip
