import EthoSlip.Proofs.RecvPacket
import EthoSlip.Proofs.Sender

/-!
# Canonical frames

The frames that `send_packet` emits for non-empty packets are the canonical ones, and on these
`send_packet` and `recv_packet` are inverse to each other.
-/

namespace EthoSlip
open Lib

/-- No END, and every ESC is followed by its own ESC_END or ESC_ESC. -/
inductive CanonicalBody : List Byte → Prop
  | nil : CanonicalBody []
  | byte (c : Byte) (w : List Byte) (hend : c ≠ slipEnd) (hesc : c ≠ slipEsc)
      (hw : CanonicalBody w) : CanonicalBody (c :: w)
  | escEnd (w : List Byte) (hw : CanonicalBody w) : CanonicalBody (slipEsc :: slipEscEnd :: w)
  | escEsc (w : List Byte) (hw : CanonicalBody w) : CanonicalBody (slipEsc :: slipEscEsc :: w)

/-- END, a body that is not empty, END. -/
def Canonical (f : List Byte) : Prop :=
  ∃ body, body ≠ [] ∧ CanonicalBody body ∧ f = slipEnd :: (body ++ [slipEnd])

lemma canonicalBody_iff (w : List Byte) : CanonicalBody w ↔ slipCode.IsCoded w := by
  constructor
  · intro h
    induction h with
    | nil => exact .nil
    | byte c w hend hesc hw ih =>
      apply StuffingCode.IsCoded.plain c w _ ih
      rw [slipCode_reserved]
      exact not_or.mpr ⟨hend, hesc⟩
    | escEnd w hw ih => exact .pair slipEnd w (.inl rfl) ih
    | escEsc w hw ih => exact .pair slipEsc w (.inr rfl) ih
  · intro h
    induction h with
    | nil => exact .nil
    | plain c w hc hw ih =>
      rw [slipCode_reserved, not_or] at hc
      exact .byte c w hc.1 hc.2 ih
    | pair c w hc hw ih =>
      rcases hc with rfl | rfl
      · exact .escEnd w ih
      · exact .escEsc w ih

lemma canonical_iff (f : List Byte) : Canonical f ↔ ∃ p, p ≠ [] ∧ slipCode.frame p = f := by
  constructor
  · rintro ⟨body, hne, hbody, rfl⟩
    rw [canonicalBody_iff] at hbody
    have hstuff := slipCode.stuff_unescape hbody
    refine ⟨slipCode.unescape body, ?_, ?_⟩
    · intro hnil
      rw [hnil] at hstuff
      exact hne hstuff.symm
    · rw [StuffingCode.frame, hstuff]
      rfl
  · rintro ⟨p, hne, rfl⟩
    refine ⟨slipCode.stuff p, ?_, ?_, rfl⟩
    · intro hnil
      apply hne
      rw [← slipCode.unescape_stuff p, hnil]
      rfl
    · rw [canonicalBody_iff]
      exact slipCode.isCoded_stuff p

instance (f : List Byte) : Decidable (Canonical f) :=
  decidable_of_iff (slipCode.unescape f.tail.dropLast ≠ [] ∧
      slipCode.frame (slipCode.unescape f.tail.dropLast) = f) (by
    rw [canonical_iff]
    constructor
    · intro h
      exact ⟨_, h⟩
    · rintro ⟨p, hne, rfl⟩
      have hp : slipCode.unescape (slipCode.frame p).tail.dropLast = p := by
        simp [StuffingCode.frame]
      rw [hp]
      exact ⟨hne, rfl⟩)

/-- The second byte of a pair is never read as an ESC or an END. -/
example : Canonical [slipEnd, slipEsc, slipEscEsc, slipEscEnd, slipEnd] ∧
    ¬Canonical [slipEnd, slipEsc, slipEsc, slipEscEnd, slipEnd] := by decide

section RoundTrip

variable {cap : Nat} {buf : Buf}

/-- A frame at the front of the line is received up to its closing END. -/
lemma recvPacket_frame (hcap : 0 < cap) (hbuf : cap ≤ buf.length) {p : List Byte} (hp : p ≠ [])
    (r : List Byte) :
    recvPacket lineSource cap buf (slipCode.frame p ++ r) =
      .returned (min cap p.length) (buf.overlay (p.take cap)) r := by
  rw [recvPacket_line cap buf hcap hbuf, recvOutcome, slipCode.feed_frame_fresh p r hp]
  simp only [List.length_take]

/-- With room for a frame its packet is received whole. -/
lemma sendPacket_received {p : List Byte} (h : p.length ≤ cap) :
    sendPacket directUart (buf.overlay (p.take cap)) (min cap p.length) [] =
      some (slipCode.frame p) := by
  rw [List.take_of_length_le h, min_eq_right h, sendPacket_overlay, sendPacket_direct,
    List.nil_append]

end RoundTrip

/-- What `send_packet` emits for a packet is canonical and is received, up to the capacity, with
exactly the following bytes left unread; a canonical frame is emitted for exactly one packet, and is
sent again when it was received with room for it. -/
theorem send_recv_inverse (cap : Nat) (buf : Buf) (hcap : 0 < cap) (hbuf : cap ≤ buf.length) :
    (∀ p : List Byte, p ≠ [] →
      ∃ f, sendPacket directUart p p.length [] = some f ∧ Canonical f ∧
        ∀ r, recvPacket lineSource cap buf (f ++ r) =
          .returned (min cap p.length) (buf.overlay (p.take cap)) r) ∧
    ∀ f, Canonical f →
      (∃! p : List Byte, sendPacket directUart p p.length [] = some f) ∧
      (f.length ≤ cap → ∀ r, ∃ received buf',
        recvPacket lineSource cap buf (f ++ r) = .returned received buf' r ∧
          sendPacket directUart buf' received [] = some f) := by
  have hsent (p : List Byte) : sendPacket directUart p p.length [] = some (slipCode.frame p) :=
    sendPacket_direct p []
  constructor
  · intro p hp
    refine ⟨slipCode.frame p, hsent p, ?_, ?_⟩
    · rw [canonical_iff]
      exact ⟨p, hp, rfl⟩
    · exact recvPacket_frame hcap hbuf hp
  · intro f hf
    obtain ⟨p, hp, rfl⟩ := (canonical_iff f).mp hf
    constructor
    · refine ⟨p, hsent p, ?_⟩
      intro q hq
      rw [hsent, Option.some.injEq] at hq
      exact slipCode.frame_injective hq
    · intro hroom r
      have hlen : p.length ≤ cap := (slipCode.length_le_frame p).trans hroom
      exact ⟨_, _, recvPacket_frame hcap hbuf hp r, sendPacket_received hlen⟩

/-- A packet of both reserved bytes, received with room for one byte. -/
theorem send_recv_inverse_witness :
    recvPacket lineSource 1 [0] [slipEnd, slipEsc, slipEscEnd, slipEsc, slipEscEsc, slipEnd, 7] =
      .returned 1 [slipEnd] [7] := by
  obtain ⟨f, hf, -, hrecv⟩ := (send_recv_inverse 1 [0] (by decide) (by decide)).1
    [slipEnd, slipEsc] (by decide)
  have hframe : f = [slipEnd, slipEsc, slipEscEnd, slipEsc, slipEscEsc, slipEnd] :=
    Option.some.inj (hf.symm.trans (by decide))
  subst hframe
  exact hrecv [7]

end EthoSlip
