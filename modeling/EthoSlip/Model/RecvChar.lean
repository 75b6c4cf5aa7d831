import EthoSlip.Model.Uart

/-!
# The buffered `recv_char`

The `recv_char` of both PC programs hands out the bytes of `gs_rx_buff` one after the other, and
calls `read()` when it takes them to be used up. It has no way to tell its caller of a failure.
-/

namespace EthoSlip

/-- What a `read()` of at most 4000 bytes delivers when it succeeds. -/
structure Chunk where
  bytes : List Byte
  length_pos : 0 < bytes.length
  length_le : bytes.length ≤ queueMaxNum
  deriving DecidableEq

/-- A result of `read()`: some bytes, 0 or -1. -/
inductive ReadResult where
  | chunk (c : Chunk)
  | endOfFile
  | error
  deriving DecidableEq

/-- The bytes that a `read()` has stored. -/
def ReadResult.bytes : ReadResult → List Byte
  | .chunk c => c.bytes
  | .endOfFile => []
  | .error => []

/-- The receive side of the PC's `uart2.c`, with the results of the `read()` calls to come. -/
structure RxState where
  gsRxBuff : Vector Byte queueMaxNum
  gsRxPtr : UInt16
  rxBufLen : Int
  reads : List ReadResult
  deriving DecidableEq

namespace RxState

/-- The statics at program start. -/
def start (reads : List ReadResult) : RxState := ⟨Vector.replicate queueMaxNum 0, 0, 0, reads⟩

/-- `gs_rx_buff` after a `read()` into it. -/
def storeChunk (buff : Vector Byte queueMaxNum) (c : Chunk) : Vector Byte queueMaxNum :=
  ⟨(Buf.overlay buff.toList c.bytes).toArray, by
    rw [List.size_toArray, Buf.length_overlay]
    · exact Vector.length_toList
    · rw [Vector.length_toList]
      exact c.length_le⟩

/-- `rx_buf_len == 0 || gs_rx_ptr == rx_buf_len` -/
def exhausted (s : RxState) : Bool := s.rxBufLen = 0 ∨ (s.gsRxPtr.toNat : Int) = s.rxBufLen

/-- `rx_buf_len = read(fd, gs_rx_buff, QUEUE_MAX_NUM); gs_rx_ptr = 0;`, once `read()` returns. -/
def refill (s : RxState) : Option RxState :=
  match s.reads with
  | [] => none
  | .chunk c :: reads => some ⟨storeChunk s.gsRxBuff c, 0, c.bytes.length, reads⟩
  | .endOfFile :: reads => some ⟨s.gsRxBuff, 0, 0, reads⟩
  | .error :: reads => some ⟨s.gsRxBuff, 0, -1, reads⟩

end RxState

/-- What a call of `recv_char` comes to. -/
inductive RecvChar where
  | returned (ch : Byte) (s : RxState)
  | waiting
  | outOfBounds
  deriving DecidableEq

/-- `return gs_rx_buff[gs_rx_ptr++];` -/
def RxState.pop (s : RxState) : RecvChar :=
  if h : s.gsRxPtr.toNat < queueMaxNum then
    .returned (s.gsRxBuff.get ⟨s.gsRxPtr.toNat, h⟩) { s with gsRxPtr := s.gsRxPtr + 1 }
  else .outOfBounds

def recvChar (s : RxState) : RecvChar :=
  if s.exhausted then
    match s.refill with
    | none => .waiting
    | some s => s.pop
  else s.pop

end EthoSlip
