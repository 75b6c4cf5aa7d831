import EthoSlip.Proofs.RecvPacket

/-!
# Resynchronisation after line noise

A byte stream is a list of segments, each noise or the intact output of `send_packet`. The frames
around an intact segment depend on the noise before it only through the bytes that `recv_packet`
has stored and through whether it waits for the byte after an ESC.
-/

namespace EthoSlip
open Lib

/-- The bytes that `send_packet` emits for a packet. -/
def emitted (p : List Byte) : List Byte := (sendPacket directUart p p.length []).getD []

@[simp] lemma emitted_eq (p : List Byte) : emitted p = slipCode.frame p := by
  rw [emitted, sendPacket_direct]
  rfl

/-- A packet that a receiver with room for `cap` bytes can take whole. -/
structure Packet (cap : Nat) where
  bytes : List Byte
  bytes_ne_nil : bytes ≠ []
  length_le : bytes.length ≤ cap

lemma Packet.take_bytes {cap : Nat} (p : Packet cap) : p.bytes.take cap = p.bytes :=
  List.take_of_length_le p.length_le

inductive Segment (cap : Nat) where
  | noise (bytes : List Byte)
  | intact (p : Packet cap)

namespace Segment

variable {cap : Nat}

def bytes : Segment cap → List Byte
  | noise b => b
  | intact p => emitted p.bytes

def wire (segs : List (Segment cap)) : List Byte := segs.flatMap bytes

/-- The packets whose segment is the first one or directly follows an intact one; `afterNoise`
tells what stands before the list. -/
def settled : Bool → List (Segment cap) → List (List Byte)
  | _, [] => []
  | _, noise _ :: segs => settled true segs
  | true, intact _ :: segs => settled false segs
  | false, intact p :: segs => p.bytes :: settled false segs

@[simp] lemma wire_nil : wire ([] : List (Segment cap)) = [] := rfl

@[simp] lemma wire_cons (seg : Segment cap) (segs : List (Segment cap)) :
    wire (seg :: segs) = seg.bytes ++ wire segs := rfl

@[simp] lemma wire_append (segs segs' : List (Segment cap)) :
    wire (segs ++ segs') = wire segs ++ wire segs' := by
  simp [wire]

@[simp] lemma bytes_intact (p : Packet cap) : (intact p).bytes = slipCode.frame p.bytes := by
  rw [bytes, emitted_eq]

lemma after_intact (segs : List (Segment cap)) (p : Packet cap) :
    slipCode.after .fresh (wire (segs ++ [intact p])) = .fresh := by
  rw [wire_append, slipCode.after_append, wire_cons, wire_nil, List.append_nil, bytes_intact,
    slipCode.after_frame]

/-- Noise costs at most the first intact segment after it, whatever the receiver has read. -/
lemma settled_sublist (segs : List (Segment cap)) (afterNoise : Bool) (r : Receiver Byte)
    (hr : afterNoise = false → r = .fresh) :
    (settled afterNoise segs).Sublist ((slipCode.frames r (wire segs)).map (List.take cap)) := by
  induction segs generalizing afterNoise r with
  | nil => simp [settled]
  | cons seg segs ih =>
    rw [wire_cons, slipCode.frames_append, List.map_append]
    cases seg with
    | noise b =>
      rw [settled]
      exact (ih true _ (by simp)).trans (List.sublist_append_right _ _)
    | intact p =>
      rw [bytes_intact, slipCode.after_frame]
      have hrest := ih false .fresh (fun _ => rfl)
      cases afterNoise with
      | true =>
        rw [settled]
        exact hrest.trans (List.sublist_append_right _ _)
      | false =>
        have hp := slipCode.frames_frame_fresh p.bytes [] p.bytes_ne_nil
        rw [List.append_nil] at hp
        rw [settled, hr rfl, hp, slipCode.frames_nil, List.map_cons, p.take_bytes]
        exact hrest.cons_cons _

end Segment

open Segment

/-- The frames delivered by repeated calls on a list of segments. -/
def delivered {cap : Nat} (buf : Buf) (segs : List (Segment cap)) : List (List Byte) :=
  (recvPackets lineSource cap buf (wire segs)).turns.map Prod.fst

section Delivered

variable {cap : Nat} (hcap : 0 < cap) (buf : Buf) (hbuf : cap ≤ buf.length)

include hcap hbuf

lemma delivered_eq (segs : List (Segment cap)) :
    delivered buf segs = (slipCode.frames .fresh (wire segs)).map (List.take cap) := by
  obtain ⟨q, -, hrun⟩ := recvPackets_line cap hcap buf hbuf (wire segs)
  rw [delivered, hrun, StuffingCode.frames, List.map_map]
  simp [slipFrames]

lemma delivered_intact (before after : List (Segment cap)) (p : Packet cap) :
    delivered buf (before ++ intact p :: after) =
      delivered buf before ++
        (slipCode.frames (slipCode.after .fresh (wire before)) (slipCode.frame p.bytes)).map
          (List.take cap) ++ delivered buf after := by
  simp only [delivered_eq hcap buf hbuf, wire_append, wire_cons, bytes_intact,
    slipCode.frames_append, slipCode.after_frame, List.map_append, List.append_assoc]

/-! The three ways in which a receiver may stand before an intact segment. -/

lemma delivered_of_fresh {before : List (Segment cap)} (after : List (Segment cap)) (p : Packet cap)
    (h : slipCode.after .fresh (wire before) = .fresh) :
    delivered buf (before ++ intact p :: after) =
      delivered buf before ++ p.bytes :: delivered buf after := by
  have hframe := slipCode.frames_frame_fresh p.bytes [] p.bytes_ne_nil
  rw [List.append_nil] at hframe
  rw [delivered_intact hcap buf hbuf, h, hframe]
  simp [p.take_bytes]

lemma delivered_of_open {before : List (Segment cap)} (after : List (Segment cap)) (p : Packet cap)
    {d : List Byte} (h : slipCode.after .fresh (wire before) = ⟨d, false⟩) :
    delivered buf (before ++ intact p :: after) =
      delivered buf before ++ (if d = [] then [] else [d.take cap]) ++
        p.bytes :: delivered buf after := by
  have hframe := slipCode.frames_frame d p.bytes [] p.bytes_ne_nil
  rw [List.append_nil] at hframe
  rw [delivered_intact hcap buf hbuf, h, hframe]
  by_cases hd : d = []
  · simp [hd, p.take_bytes]
  · simp [hd, p.take_bytes]

lemma delivered_of_escaped {before : List (Segment cap)} (after : List (Segment cap))
    (p : Packet cap) {d : List Byte} (h : slipCode.after .fresh (wire before) = ⟨d, true⟩) :
    delivered buf (before ++ intact p :: after) =
      delivered buf before ++ (d ++ slipEnd :: p.bytes).take cap :: delivered buf after := by
  have hframe := slipCode.frames_frame_escaped d p.bytes []
  rw [List.append_nil] at hframe
  rw [delivered_intact hcap buf hbuf, h, hframe]
  simp

end Delivered

lemma take_take_append (cap : Nat) (d x : List Byte) :
    (d.take cap ++ x).take cap = (d ++ x).take cap := by
  rw [List.take_append, List.take_append, List.take_take, List.length_take, min_self]
  congr 2
  omega

/-- Around an intact segment for the packet `p` the delivered frames are, by the state in which the
segments before it leave the receiver: (a) after an intact segment or at the start, `p`; (b) after
noise that leaves no ESC pending, what the noise had stored and then `p`; (c) after a pending ESC,
one frame of the stored bytes, an END and `p`, cut to the capacity. So the packets lost to noise are
among the first intact ones after it. -/
theorem noise_costs_one_frame (cap : Nat) (hcap : 0 < cap) (buf : Buf) (hbuf : cap ≤ buf.length) :
    (∀ (before : List (Segment cap)) (p : Packet cap) (after : List (Segment cap)),
      ∃ received q escaped,
        (recvPackets lineSource cap buf (wire before)).stop = .waiting () received q escaped ∧
        (before = [] ∨ (∃ segs p', before = segs ++ [intact p']) →
          delivered buf (before ++ intact p :: after) =
            delivered buf before ++ p.bytes :: delivered buf after) ∧
        (escaped = false →
          delivered buf (before ++ intact p :: after) =
            delivered buf before ++ (if received = 0 then [] else [q.take received]) ++
              p.bytes :: delivered buf after) ∧
        (escaped = true →
          delivered buf (before ++ intact p :: after) =
            delivered buf before ++
              (q.take received ++ slipEnd :: p.bytes).take cap :: delivered buf after)) ∧
    ∀ segs : List (Segment cap), (settled false segs).Sublist (delivered buf segs) := by
  constructor
  · intro before p after
    obtain ⟨q, -, hrun⟩ := recvPackets_line cap hcap buf hbuf (wire before)
    refine ⟨_, _, _, by rw [hrun], ?_, ?_, ?_⟩
    · intro hfirst
      apply delivered_of_fresh hcap buf hbuf
      rcases hfirst with rfl | ⟨segs, p', rfl⟩
      · rfl
      · exact after_intact segs p'
    · intro hesc
      obtain ⟨d, hr⟩ : ∃ d, slipCode.after .fresh (wire before) = ⟨d, false⟩ :=
        ⟨_, Receiver.ext rfl hesc⟩
      rw [delivered_of_open hcap buf hbuf after p hr, hr, Buf.take_overlay]
      simp [hcap.ne']
    · intro hesc
      obtain ⟨d, hr⟩ : ∃ d, slipCode.after .fresh (wire before) = ⟨d, true⟩ :=
        ⟨_, Receiver.ext rfl hesc⟩
      rw [delivered_of_escaped hcap buf hbuf after p hr, hr, Buf.take_overlay, take_take_append]
  · intro segs
    rw [delivered_eq hcap buf hbuf]
    exact settled_sublist segs false .fresh (fun _ => rfl)

/-- Noise that ends in an ESC swallows the frame after it and leaves the next one alone. -/
def noisyLine : List (Segment 4) :=
  [.noise [7, slipEsc], .intact ⟨[1, 2], by decide, by decide⟩, .intact ⟨[3], by decide, by decide⟩]

theorem noise_costs_one_frame_witness :
    settled false noisyLine = [[3]] ∧
      (settled false noisyLine).Sublist (delivered [0, 0, 0, 0] noisyLine) :=
  ⟨by decide, (noise_costs_one_frame 4 (by decide) [0, 0, 0, 0] (by decide)).2 noisyLine⟩

end EthoSlip
