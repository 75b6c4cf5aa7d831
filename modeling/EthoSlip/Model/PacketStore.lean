import Mathlib.Algebra.BigOperators.Fin
import EthoSlip.Model.PbufClients

/-!
# A store of packets

What the pool is for when every reference has one owner: a store of packets. A packet is a string of
bytes in pieces, one for each element that it takes, with the memory that is reserved in front of
each of them. What a call does to the pieces is all that its caller can see of it, but for the
addresses that `pbuf_alloc` and `pbuf_free_header` return.
-/

namespace EthoSlip

structure PacketPiece where
  headroom : List Byte
  bytes : List Byte
  deriving DecidableEq

namespace PacketPiece

/-- The first `k` bytes become headroom. -/
def hide (s : PacketPiece) (k : Nat) : PacketPiece :=
  ⟨s.headroom ++ s.bytes.take k, s.bytes.drop k⟩

/-- The last `k` bytes of the headroom become bytes of the packet. -/
def reveal (s : PacketPiece) (k : Nat) : PacketPiece :=
  ⟨s.headroom.take (s.headroom.length - k), s.headroom.drop (s.headroom.length - k) ++ s.bytes⟩

/-- The data is written to the front, as far as there is room. -/
def write (s : PacketPiece) (data : List Byte) : PacketPiece :=
  ⟨s.headroom, data.take s.bytes.length ++ s.bytes.drop data.length⟩

end PacketPiece

def bytesOf (pieces : List PacketPiece) : List Byte := pieces.flatMap PacketPiece.bytes

def writePieces : List Byte → List PacketPiece → List PacketPiece
  | _, [] => []
  | data, s :: rest => s.write data :: writePieces (data.drop s.bytes.length) rest

/-- The pieces of the first `len` bytes. -/
def cutPieces : Nat → List PacketPiece → List PacketPiece
  | _, [] => []
  | len, s :: rest =>
    if s.bytes.length < len then s :: cutPieces (len - s.bytes.length) rest
    else [⟨s.headroom, s.bytes.take len⟩]

/-- What is left when the first `size` bytes are given back: whole pieces go, the piece behind them
hides the rest. -/
def dropPieces : Nat → List PacketPiece → List PacketPiece
  | _, [] => []
  | size, s :: rest =>
    if size = 0 then s :: rest
    else if s.bytes.length ≤ size then dropPieces (size - s.bytes.length) rest
    else s.hide size :: rest

/-- A packet has at least one piece. -/
structure StoredPacket where
  first : PacketPiece
  rest : List PacketPiece
  deriving DecidableEq

/-- The number of elements that hold `length` bytes, the first of them behind an offset. -/
def PbufLayer.segments (layer : PbufLayer) (length : Nat) : Nat :=
  max 1 ((layer.offset.toNat + length + (pbufPoolBufsize - 1)) / pbufPoolBufsize)

/-- The lengths of `k` elements that are filled one after the other, the first with some room. -/
def fillLengths (room : Nat) : (k length : Nat) → List Nat
  | 0, _ => []
  | k + 1, length => min room length :: fillLengths pbufPoolBufsize k (length - room)

namespace StoredPacket

def pieces (k : StoredPacket) : List PacketPiece := k.first :: k.rest

def bytes (k : StoredPacket) : List Byte := bytesOf k.pieces

/-- A packet as `pbuf_alloc` makes it, whatever its bytes are. -/
structure Fresh (k : StoredPacket) (layer : PbufLayer) (length : Nat) : Prop where
  reserved : k.first.headroom.length = layer.offset.toNat
  unreserved : ∀ s ∈ k.rest, s.headroom = []
  lengths : k.pieces.map (fun s => s.bytes.length) =
    fillLengths (pbufPoolBufsize - layer.offset.toNat) (layer.segments length) length

end StoredPacket

abbrev PacketStore (n : Nat) := Fin n → Option StoredPacket

namespace PacketStore

variable {n : Nat}

def lengthAt (σ : PacketStore n) (p : Fin n) : Nat := ((σ p).map (fun k => k.bytes.length)).getD 0

def firstLengthAt (σ : PacketStore n) (p : Fin n) : Nat :=
  ((σ p).map (fun k => k.first.bytes.length)).getD 0

/-- The number of elements that the packets take. -/
def used (σ : PacketStore n) : Nat := ∑ p, ((σ p).map (fun k => k.pieces.length)).getD 0

/-- The packets that a call names are in the store, and each is named once. -/
def Admits (σ : PacketStore n) : PbufOp n → Prop
  | .alloc _ _ => True
  | .ref _ => False
  | .free p => (σ p).isSome
  | .cat h t => (σ h).isSome ∧ (σ t).isSome ∧ h ≠ t ∧ σ.lengthAt h + σ.lengthAt t < 2 ^ 16
  | .chain _ _ => False
  | .dechain p => (σ p).isSome
  | .realloc p _ => (σ p).isSome
  | .removeHeader p decrement =>
    (σ p).isSome ∧ (decrement ≤ σ.firstLengthAt p ∨ 0xffff < decrement)
  | .addHeader p _ => (σ p).isSome
  | .freeHeader p _ => (σ p).isSome
  | .take p dataptr len =>
    (σ p).isSome ∧ len.toNat ≤ σ.lengthAt p ∧ len.toNat ≤ dataptr.length
  | .copyPartial p dataptr len _ => (σ p).isSome ∧ len.toNat ≤ dataptr.length

instance (σ : PacketStore n) : (op : PbufOp n) → Decidable (Admits σ op)
  | .alloc _ _ => inferInstanceAs (Decidable True)
  | .ref _ => inferInstanceAs (Decidable False)
  | .free _ => inferInstanceAs (Decidable (_ = _))
  | .cat _ _ => inferInstanceAs (Decidable (_ ∧ _ ∧ _ ∧ _))
  | .chain _ _ => inferInstanceAs (Decidable False)
  | .dechain _ => inferInstanceAs (Decidable (_ = _))
  | .realloc _ _ => inferInstanceAs (Decidable (_ = _))
  | .removeHeader _ _ => inferInstanceAs (Decidable (_ ∧ (_ ∨ _)))
  | .addHeader _ _ => inferInstanceAs (Decidable (_ = _))
  | .freeHeader _ _ => inferInstanceAs (Decidable (_ = _))
  | .take _ _ _ => inferInstanceAs (Decidable (_ ∧ _ ∧ _))
  | .copyPartial _ _ _ _ => inferInstanceAs (Decidable (_ ∧ _))

/-- What a call does to the store, with what it returns. -/
inductive Call (σ : PacketStore n) : PbufOp n → PbufReply n → PacketStore n → Prop
  | allocNone {layer : PbufLayer} {length : UInt16} :
      n < σ.used + layer.segments length.toNat →
      Call σ (.alloc layer length) (.pbuf none) σ
  | alloc {layer : PbufLayer} {length : UInt16} {p : Fin n} {k : StoredPacket} :
      σ.used + layer.segments length.toNat ≤ n → σ p = none → k.Fresh layer length.toNat →
      Call σ (.alloc layer length) (.pbuf (some p)) (Function.update σ p (some k))
  | free {p : Fin n} {k : StoredPacket} : σ p = some k →
      Call σ (.free p) (.count (UInt8.ofNat k.pieces.length)) (Function.update σ p none)
  | cat {h t : Fin n} {k k' : StoredPacket} : σ h = some k → σ t = some k' →
      Call σ (.cat h t) .void (Function.update (Function.update σ t none) h
        (some ⟨k.first, k.rest ++ k'.pieces⟩))
  | dechain {p : Fin n} {k : StoredPacket} : σ p = some k →
      ¬(k.rest ≠ [] ∧ k.rest.length % 256 = 0) →
      Call σ (.dechain p) (.pbuf none) (Function.update σ p (some ⟨k.first, []⟩))
  /-- The number of elements that are given back is a `u8_t`. -/
  | dechainWraps {p q : Fin n} {k : StoredPacket} : σ p = some k →
      k.rest ≠ [] → k.rest.length % 256 = 0 → σ q = none →
      Call σ (.dechain p) (.pbuf (some q)) (Function.update σ p (some ⟨k.first, []⟩))
  | realloc {p : Fin n} {k k' : StoredPacket} {newLen : UInt16} : σ p = some k →
      newLen.toNat < k.bytes.length → k'.pieces = cutPieces newLen.toNat k.pieces →
      Call σ (.realloc p newLen) .void (Function.update σ p (some k'))
  | reallocShort {p : Fin n} {k : StoredPacket} {newLen : UInt16} : σ p = some k →
      k.bytes.length ≤ newLen.toNat → Call σ (.realloc p newLen) .void σ
  | removeHeader {p : Fin n} {k : StoredPacket} {decrement : Nat} : σ p = some k →
      decrement ≤ k.first.bytes.length →
      Call σ (.removeHeader p decrement) (.count 0) (Function.update σ p
        (some ⟨k.first.hide decrement, k.rest⟩))
  | removeHeaderFails {p : Fin n} {decrement : Nat} : 0xffff < decrement →
      Call σ (.removeHeader p decrement) (.count 1) σ
  | addHeader {p : Fin n} {k : StoredPacket} {increment : Nat} : σ p = some k →
      increment ≤ k.first.headroom.length → increment + k.bytes.length < 2 ^ 16 →
      Call σ (.addHeader p increment) (.count 0) (Function.update σ p
        (some ⟨k.first.reveal increment, k.rest⟩))
  | addHeaderFails {p : Fin n} {k : StoredPacket} {increment : Nat} : σ p = some k →
      ¬(increment ≤ k.first.headroom.length ∧ increment + k.bytes.length < 2 ^ 16) →
      Call σ (.addHeader p increment) (.count 1) σ
  | freeHeaderAll {p : Fin n} {k : StoredPacket} {size : UInt16} : σ p = some k →
      dropPieces size.toNat k.pieces = [] →
      Call σ (.freeHeader p size) (.pbuf none) (Function.update σ p none)
  | freeHeader {p q : Fin n} {k k' : StoredPacket} {size : UInt16} : σ p = some k →
      k'.pieces = dropPieces size.toNat k.pieces →
      (q = p ↔ k'.pieces.length = k.pieces.length) → (q ≠ p → σ q = none) →
      Call σ (.freeHeader p size) (.pbuf (some q))
        (Function.update (Function.update σ p none) q (some k'))
  | take {p : Fin n} {k k' : StoredPacket} {dataptr : Buf} {len : UInt16} : σ p = some k →
      k'.pieces = writePieces (dataptr.take len.toNat) k.pieces →
      Call σ (.take p dataptr len) (.err errOk) (Function.update σ p (some k'))
  | copyPartial {p : Fin n} {k : StoredPacket} {dataptr : Buf} {len offset copied : UInt16} :
      σ p = some k → copied.toNat = ((k.bytes.drop offset.toNat).take len.toNat).length →
      Call σ (.copyPartial p dataptr len offset)
        (.bytes (dataptr.overlay ((k.bytes.drop offset.toNat).take len.toNat)) copied) σ

end PacketStore

end EthoSlip
