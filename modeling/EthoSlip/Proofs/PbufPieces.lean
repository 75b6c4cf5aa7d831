import EthoSlip.Model.PacketStore
import EthoSlip.Proofs.PbufChains

/-!
# The pieces of a packet

An element of the pool is a piece of a packet: its payload, with the memory in front of it. What a
function does to the pieces of a packet is what it does to the bytes.
-/

namespace EthoSlip
open Lib

section Pieces

variable {pieces pieces' : List PacketPiece} {s : PacketPiece}

@[simp] lemma bytesOf_nil : bytesOf [] = [] := rfl

@[simp] lemma bytesOf_cons (s : PacketPiece) (pieces : List PacketPiece) :
    bytesOf (s :: pieces) = s.bytes ++ bytesOf pieces := rfl

/-- A header that is removed comes back when it is added again. -/
lemma PacketPiece.reveal_hide {k : ℕ} (hk : k ≤ s.bytes.length) : (s.hide k).reveal k = s := by
  have hlength : (s.headroom ++ s.bytes.take k).length - k = s.headroom.length := by
    rw [List.length_append, List.length_take_of_le hk, Nat.add_sub_cancel]
  rw [reveal, hide]
  simp only [hlength, List.take_left, List.drop_left, List.take_append_drop]

lemma PacketPiece.write_nil (s : PacketPiece) : s.write [] = s := by
  rw [write, List.take_nil, List.length_nil, List.drop_zero, List.nil_append]

lemma writePieces_nil (pieces : List PacketPiece) : writePieces [] pieces = pieces := by
  induction pieces with
  | nil => rfl
  | cons s rest ih => rw [writePieces, s.write_nil, List.drop_nil, ih]

/-- What is cut are the last bytes. -/
lemma bytesOf_cutPieces (len : ℕ) (pieces : List PacketPiece) :
    bytesOf (cutPieces len pieces) = (bytesOf pieces).take len := by
  induction pieces generalizing len with
  | nil => simp [cutPieces]
  | cons s rest ih =>
    rw [cutPieces, bytesOf_cons, List.take_append]
    split_ifs with hmore
    · rw [bytesOf_cons, ih, List.take_of_length_le hmore.le]
    · rw [bytesOf_cons, bytesOf_nil, Nat.sub_eq_zero_of_le (Nat.not_lt.mp hmore), List.take_zero]

/-- The cut is in the piece that the last of the bytes are in. -/
lemma cutPieces_append {rem : ℕ} (hrem : rem ≤ s.bytes.length) (hpos : pieces ≠ [] → 0 < rem) :
    cutPieces ((bytesOf pieces).length + rem) (pieces ++ s :: pieces') =
      pieces ++ [⟨s.headroom, s.bytes.take rem⟩] := by
  induction pieces with
  | nil =>
    rw [bytesOf_nil, List.length_nil, Nat.zero_add, List.nil_append, cutPieces,
      if_neg (Nat.not_lt.mpr hrem), List.nil_append]
  | cons t rest ih =>
    have hmore := hpos (List.cons_ne_nil t rest)
    rw [List.cons_append, cutPieces, bytesOf_cons, List.length_append, if_pos (by omega),
      Nat.add_assoc, Nat.add_sub_cancel_left, ih (fun _ => hmore), List.cons_append]

/-- What is given back are the first bytes. -/
lemma bytesOf_dropPieces (size : ℕ) (pieces : List PacketPiece) :
    bytesOf (dropPieces size pieces) = (bytesOf pieces).drop size := by
  induction pieces generalizing size with
  | nil => simp [dropPieces]
  | cons s rest ih =>
    rw [dropPieces, bytesOf_cons, List.drop_append]
    split_ifs with hzero hall
    · rw [hzero, List.drop_zero, Nat.zero_sub, List.drop_zero, bytesOf_cons]
    · rw [ih, List.drop_of_length_le hall, List.nil_append]
    · rw [bytesOf_cons, Nat.sub_eq_zero_of_le (Nat.not_le.mp hall).le, List.drop_zero]
      rfl

end Pieces

namespace PbufPool

variable {n : ℕ} {m m' : PbufPool n} {held : Multiset (Fin n)} {a p : Fin n} {l : List (Fin n)}
  {c c' : PbufCell n}

def lenOf (m : PbufPool n) (a : Fin n) : ℕ := ((m.cell a).map (fun c => c.len.toNat)).getD 0

lemma lenOf_eq (h : m.cell a = some c) : m.lenOf a = c.len.toNat := by
  rw [lenOf, h, Option.map_some, Option.getD_some]

/-- The real length of a chain, of which `tot_len` keeps the low 16 bits. -/
def size (m : PbufPool n) (l : List (Fin n)) : ℕ := (l.map m.lenOf).sum

@[simp] lemma size_nil (m : PbufPool n) : m.size [] = 0 := rfl

@[simp] lemma size_cons (m : PbufPool n) (a : Fin n) (l : List (Fin n)) :
    m.size (a :: l) = m.lenOf a + m.size l := by
  rw [size, List.map_cons, List.sum_cons, size]

lemma size_append (m : PbufPool n) (l₁ l₂ : List (Fin n)) :
    m.size (l₁ ++ l₂) = m.size l₁ + m.size l₂ := by
  rw [size, List.map_append, List.sum_append, size, size]

lemma size_congr (h : ∀ a ∈ l, m'.lenOf a = m.lenOf a) : m'.size l = m.size l :=
  congrArg List.sum (List.map_congr_left h)

/-- The payload of an element. -/
def segment (m : PbufPool n) (a : Fin n) : List Byte :=
  ((m.cell a).map (fun c => ((m.memory a).toList.drop c.payload).take c.len.toNat)).getD []

def contents (m : PbufPool n) (l : List (Fin n)) : List Byte := l.flatMap m.segment

/-- The memory in front of the payload. -/
def headroom (m : PbufPool n) (a : Fin n) : List Byte :=
  ((m.cell a).map (fun c => (m.memory a).toList.take c.payload)).getD []

/-- What an element is in the store of packets. -/
def piece (m : PbufPool n) (a : Fin n) : PacketPiece := ⟨m.headroom a, m.segment a⟩

lemma bytesOf_map_piece (m : PbufPool n) (l : List (Fin n)) :
    bytesOf (l.map m.piece) = m.contents l := List.flatMap_map ..

lemma headroom_eq (h : m.cell a = some c) : m.headroom a = (m.memory a).toList.take c.payload := by
  rw [headroom, h, Option.map_some, Option.getD_some]

lemma segment_eq (h : m.cell a = some c) :
    m.segment a = ((m.memory a).toList.drop c.payload).take c.len.toNat := by
  rw [segment, h, Option.map_some, Option.getD_some]

@[simp] lemma contents_cons (m : PbufPool n) (a : Fin n) (l : List (Fin n)) :
    m.contents (a :: l) = m.segment a ++ m.contents l := rfl

/-- Only the place and the length of the payload count. -/
lemma piece_congr (ha : m.cell a = some c) (ha' : m'.cell a = some c')
    (hpayload : c'.payload = c.payload) (hlen : c'.len = c.len)
    (hmemory : m'.memory a = m.memory a) : m'.piece a = m.piece a := by
  rw [piece, piece, headroom_eq ha, headroom_eq ha', segment_eq ha, segment_eq ha', hpayload, hlen,
    hmemory]

lemma map_piece_congr (hcell : ∀ a ∈ l, m'.cell a = m.cell a)
    (hmemory : ∀ a ∈ l, m'.memory a = m.memory a) : l.map m'.piece = l.map m.piece := by
  apply List.map_congr_left
  intro a ha
  rw [piece, piece, headroom, headroom, segment, segment, hcell a ha, hmemory a ha]

namespace Sound

lemma length_segment (h : m.Sound held) (a : Fin n) : (m.segment a).length = m.lenOf a := by
  cases ha : m.cell a with
  | none =>
    rw [segment, lenOf, ha]
    rfl
  | some c =>
    have hwindow := h.window a c ha
    rw [segment_eq ha, lenOf_eq ha, List.length_take, List.length_drop, Vector.length_toList]
    omega

lemma length_contents (h : m.Sound held) (l : List (Fin n)) :
    (m.contents l).length = m.size l := by
  induction l with
  | nil => rfl
  | cons a l ih => rw [contents_cons, List.length_append, h.length_segment, ih, size_cons]

end Sound

end PbufPool

end EthoSlip
