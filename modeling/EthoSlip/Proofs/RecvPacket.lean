import EthoSlip.Proofs.SlipCode

/-!
# What `recv_packet` returns

A call of `recv_packet` is the receiver of the SLIP code up to its first completed frame, with the
frame cut to the capacity. The static buffer never matters: what a receiving task does is a
function of the frames in its input, as long as its body looks at nothing but the current frame.
-/

namespace EthoSlip
open Lib

/-- Fuel above the number of available bytes never runs out. -/
lemma recvLoop_fuel {σ : Type} (src : ByteSource σ) (len fuel fuel' : Nat) (p : Buf) (received : Nat)
    (s : σ) (h : src.avail s < fuel) (h' : src.avail s < fuel') :
    recvLoop src len fuel p received s = recvLoop src len fuel' p received s := by
  induction fuel generalizing fuel' p received s with
  | zero => omega
  | succ fuel ih =>
    obtain ⟨fuel', rfl⟩ : ∃ k, fuel' = k + 1 := ⟨fuel' - 1, by omega⟩
    simp only [recvLoop]
    cases hc : src.recvChar s with
    | none => rfl
    | some cs =>
      obtain ⟨c, s₁⟩ := cs
      have h₁ := src.avail_recvChar s c s₁ hc
      simp only
      split_ifs
      · rfl
      · exact ih fuel' p received s₁ (by omega) (by omega)
      · cases hc' : src.recvChar s₁ with
        | none => rfl
        | some cs =>
          obtain ⟨c', s₂⟩ := cs
          have h₂ := src.avail_recvChar s₁ c' s₂ hc'
          cases hst : recvStore len p received (unstuffByte c') with
          | none => simp only [hst]
          | some pr =>
            simp only [hst]
            exact ih fuel' pr.1 pr.2 s₂ (by omega) (by omega)
      · cases hst : recvStore len p received c with
        | none => rfl
        | some pr => exact ih fuel' pr.1 pr.2 s₁ (by omega) (by omega)

section Call

variable (len : Nat) (p : Buf)

lemma recvStore_overlay (hp : len ≤ p.length) (d : List Byte) (c : Byte) :
    recvStore len (p.overlay (d.take len)) (d.take len).length c =
      some (p.overlay ((d ++ [c]).take len), ((d ++ [c]).take len).length) := by
  unfold recvStore
  by_cases h : d.length < len
  · have hd : d.take len = d := List.take_of_length_le h.le
    have hdc : (d ++ [c]).take len = d ++ [c] := List.take_of_length_le (by simp; omega)
    rw [hd, hdc, if_pos h, p.store_overlay d c (by omega)]
    simp
  · have hlen : (d.take len).length = len := by simp; omega
    have hdc : (d ++ [c]).take len = d.take len := List.take_append_of_le_length (by omega)
    rw [hdc, hlen, if_neg (lt_irrefl len)]

/-- The result of a call that is to read `w` and has the receiver `r` behind it. -/
def recvOutcome (r : Receiver Byte) (w : List Byte) : RecvResult (List Byte) :=
  match slipCode.feed r w with
  | [] =>
    let d := (slipCode.after r w).data.take len
    .waiting d.length (p.overlay d) (slipCode.after r w).escaped
  | (d, rest) :: _ => .returned (d.take len).length (p.overlay (d.take len)) rest

lemma recvOutcome_congr {r r' : Receiver Byte} {w w' : List Byte}
    (hfeed : slipCode.feed r w = slipCode.feed r' w')
    (hafter : slipCode.after r w = slipCode.after r' w') :
    recvOutcome len p r w = recvOutcome len p r' w' := by
  rw [recvOutcome, recvOutcome, hfeed, hafter]

lemma recvLoop_line (hlen : 0 < len) (hp : len ≤ p.length) (fuel : Nat) (d w : List Byte)
    (hf : w.length < fuel) :
    recvLoop lineSource len fuel (p.overlay (d.take len)) (d.take len).length w =
      recvOutcome len p ⟨d, false⟩ w := by
  induction fuel generalizing d w with
  | zero => omega
  | succ fuel ih =>
    cases w with
    | nil => rfl
    | cons c w =>
      simp only [List.length_cons] at hf
      simp only [recvLoop, lineSource_cons]
      by_cases hend : c = slipEnd
      · -- an END: a frame is complete, or the byte is skipped
        subst hend
        rw [if_pos rfl]
        have hfeed := slipCode.feed_delim d w
        have hafter := slipCode.after_delim d w
        rw [slipCode_delim] at hfeed hafter
        by_cases hd : d = []
        · subst hd
          rw [if_pos rfl] at hfeed
          rw [if_neg (by simp), ih [] w (by omega)]
          exact recvOutcome_congr len p hfeed.symm hafter.symm
        · have hpos : (d.take len).length ≠ 0 := by
            have := List.length_pos_of_ne_nil hd
            simp only [List.length_take]
            omega
          rw [if_neg hd] at hfeed
          rw [if_pos hpos, recvOutcome, hfeed]
      · rw [if_neg hend]
        by_cases hesc : c = slipEsc
        · subst hesc
          have hfeed := slipCode.feed_esc d w
          have hafter := slipCode.after_esc d w
          rw [slipCode_esc] at hfeed hafter
          rw [if_pos rfl]
          cases w with
          | nil =>
            rw [lineSource_nil, recvOutcome, hfeed, hafter]
            rfl
          | cons b w =>
            simp only [List.length_cons] at hf
            simp only [lineSource_cons, recvStore_overlay len p hp]
            rw [ih (d ++ [unstuffByte b]) w (by omega)]
            refine recvOutcome_congr len p ?_ ?_
            · rw [hfeed, StuffingCode.feed_escaped, slipCode_decode]
            · rw [hafter, StuffingCode.after_escaped, slipCode_decode]
        · have hplain : ¬slipCode.Reserved c := by simp [slipCode_reserved, hend, hesc]
          rw [if_neg hesc]
          simp only [recvStore_overlay len p hp]
          rw [ih (d ++ [c]) w (by omega)]
          exact recvOutcome_congr len p (slipCode.feed_plain d w c hplain).symm
            (slipCode.after_plain d w c hplain).symm

/-- A call of `recv_packet` on the line is the SLIP receiver up to its first frame. -/
theorem recvPacket_line (hlen : 0 < len) (hp : len ≤ p.length) (w : List Byte) :
    recvPacket lineSource len p w = recvOutcome len p .fresh w := by
  have h := recvLoop_line len p hlen hp (w.length + 1) [] w (Nat.lt_succ_self _)
  rwa [List.take_nil, Buf.overlay_nil] at h

end Call

/-- The frames of a byte stream as `recv_packet` cuts them, each with the bytes left unread. -/
def slipFrames (len : Nat) (w : List Byte) : List (List Byte × List Byte) :=
  (slipCode.feed .fresh w).map (fun f => (f.1.take len, f.2))

section Run

variable {α β : Type} (len : Nat)

/-- A body that only looks at the current frame: `h` is what it does with it. -/
def LooksAt (body : α → Buf → Nat → Option (α × Buf × β)) (h : α → List Byte → α × β) : Prop :=
  ∀ (a : α) (p : Buf) (f : List Byte), f ≠ [] → f.length ≤ len → len ≤ p.length →
    ∃ p' : Buf, body a (p.overlay f) f.length = some ((h a f).1, p', (h a f).2) ∧ p'.length = p.length

/-- The effects of `h` on a list of frames. -/
def handleFrames {σ : Type} (h : α → List Byte → α × β) : α → List (List Byte × σ) → List (β × σ)
  | _, [] => []
  | a, f :: l => ((h a f.1).2, f.2) :: handleFrames h (h a f.1).1 l

def stateAfter {σ : Type} (h : α → List Byte → α × β) (a : α) (l : List (List Byte × σ)) : α :=
  l.foldl (fun a f => (h a f.1).1) a

/-- The body on one frame, in the state `a`. -/
def LooksAtFrame (body : α → Buf → Nat → Option (α × Buf × β)) (h : α → List Byte → α × β) (a : α)
    (f : List Byte) : Prop :=
  ∀ p : Buf, len ≤ p.length →
    ∃ p' : Buf, body a (p.overlay f) f.length = some ((h a f).1, p', (h a f).2) ∧ p'.length = p.length

/-- The body on a list of frames, from the state `a`. -/
def LooksAtFrames {σ : Type} (body : α → Buf → Nat → Option (α × Buf × β))
    (h : α → List Byte → α × β) : α → List (List Byte × σ) → Prop
  | _, [] => True
  | a, f :: l => LooksAtFrame len body h a f.1 ∧ LooksAtFrames body h (h a f.1).1 l

lemma mem_slipFrames (hlen : 0 < len) {w : List Byte} {f : List Byte × List Byte}
    (hf : f ∈ slipFrames len w) : f.1 ≠ [] ∧ f.1.length ≤ len := by
  obtain ⟨g, hg, rfl⟩ := List.mem_map.mp hf
  have hne := slipCode.feed_ne_nil .fresh w g hg
  constructor
  · simp [hne]
    omega
  · simp

/-- A body that only looks at the current frame in the states of an invariant that it keeps. -/
lemma looksAtFrames_of_invariant {σ : Type} {body : α → Buf → Nat → Option (α × Buf × β)}
    {h : α → List Byte → α × β} {I : α → Prop}
    (hbody : ∀ a f, I a → f ≠ [] → f.length ≤ len → LooksAtFrame len body h a f ∧ I (h a f).1)
    (a : α) (ha : I a) (l : List (List Byte × σ)) (hl : ∀ f ∈ l, f.1 ≠ [] ∧ f.1.length ≤ len) :
    LooksAtFrames len body h a l := by
  induction l generalizing a with
  | nil => trivial
  | cons f l ih =>
    obtain ⟨hne, hle⟩ := hl f (by simp)
    obtain ⟨hframe, hI⟩ := hbody a f.1 ha hne hle
    exact ⟨hframe, ih _ hI (fun g hg => hl g (by simp [hg]))⟩

lemma serveLoop_frames (hlen : 0 < len) {body : α → Buf → Nat → Option (α × Buf × β)}
    {h : α → List Byte → α × β} (fuel : Nat) (a : α) (p : Buf)
    (hp : len ≤ p.length) (w : List Byte) (hbody : LooksAtFrames len body h a (slipFrames len w))
    (hf : w.length < fuel) :
    ∃ q : Buf, q.length = p.length ∧ serveLoop lineSource len body fuel a p w =
      ⟨handleFrames h a (slipFrames len w), .waiting (stateAfter h a (slipFrames len w))
        ((slipCode.after .fresh w).data.take len).length
        (q.overlay ((slipCode.after .fresh w).data.take len)) (slipCode.after .fresh w).escaped⟩ := by
  induction fuel generalizing a p w with
  | zero => omega
  | succ fuel ih =>
    rw [serveLoop, recvPacket_line len p hlen hp, recvOutcome]
    cases hfeed : slipCode.feed .fresh w with
    | nil => exact ⟨p, rfl, by simp [slipFrames, hfeed, handleFrames, stateAfter]⟩
    | cons f l =>
      obtain ⟨d, rest⟩ := f
      have hrest : rest.length < w.length := slipCode.feed_length_lt .fresh w (d, rest) (by simp [hfeed])
      obtain ⟨hl, hafter⟩ := slipCode.feed_tail _ _ _ _ _ hfeed
      have hframes : slipFrames len w = (d.take len, rest) :: slipFrames len rest := by
        rw [slipFrames, hfeed, hl]
        rfl
      rw [hframes] at hbody
      obtain ⟨p', hb, hp'⟩ := hbody.1 p hp
      obtain ⟨q, hq, hnext⟩ := ih (h a (d.take len)).1 p' (by omega) rest hbody.2 (by omega)
      refine ⟨q, hq.trans hp', ?_⟩
      simp only [hb, hnext, hafter]
      simp [hframes, handleFrames, stateAfter]

/-- A receiving task on a stream whose frames its body only looks at. -/
theorem serve_frames (hlen : 0 < len) {body : α → Buf → Nat → Option (α × Buf × β)}
    {h : α → List Byte → α × β} (a : α) (p : Buf) (hp : len ≤ p.length) (w : List Byte)
    (hbody : LooksAtFrames len body h a (slipFrames len w)) :
    ∃ q : Buf, q.length = p.length ∧ serve lineSource len body a p w =
      ⟨handleFrames h a (slipFrames len w), .waiting (stateAfter h a (slipFrames len w))
        ((slipCode.after .fresh w).data.take len).length
        (q.overlay ((slipCode.after .fresh w).data.take len)) (slipCode.after .fresh w).escaped⟩ :=
  serveLoop_frames len hlen (w.length + 1) a p hp w hbody (Nat.lt_succ_self _)

/-- The content of the static buffer has no part in what a receiving task does: it is a function of
the frames in its input. -/
theorem serve_line (hlen : 0 < len) {body : α → Buf → Nat → Option (α × Buf × β)}
    {h : α → List Byte → α × β} (hbody : LooksAt len body h) (a : α) (p : Buf)
    (hp : len ≤ p.length) (w : List Byte) :
    ∃ q : Buf, q.length = p.length ∧ serve lineSource len body a p w =
      ⟨handleFrames h a (slipFrames len w), .waiting (stateAfter h a (slipFrames len w))
        ((slipCode.after .fresh w).data.take len).length
        (q.overlay ((slipCode.after .fresh w).data.take len)) (slipCode.after .fresh w).escaped⟩ := by
  apply serve_frames len hlen a p hp w
  apply looksAtFrames_of_invariant len (I := fun _ => True) _ a trivial
  · intro f hf
    exact mem_slipFrames len hlen hf
  · intro a f _ hne hle
    exact ⟨fun p hp => hbody a p f hne hle hp, trivial⟩

end Run

lemma handleFrames_id {σ : Type} (l : List (List Byte × σ)) :
    handleFrames (fun _ f => ((), f)) () l = l := by
  induction l with
  | nil => rfl
  | cons f l ih => rw [handleFrames, ih]

lemma recvPackets_looksAt (len : Nat) :
    LooksAt len (fun (_ : Unit) p received => some ((), p, p.take received))
      (fun _ f => ((), f)) := by
  intro _ p f _ hf hp
  exact ⟨p.overlay f, by simp, p.length_overlay f (by omega)⟩

/-- Repeated calls return the frames of the stream and end waiting for the first byte that makes
another one. -/
theorem recvPackets_line (len : Nat) (hlen : 0 < len) (p : Buf) (hp : len ≤ p.length)
    (w : List Byte) :
    ∃ q : Buf, q.length = p.length ∧ recvPackets lineSource len p w =
      ⟨slipFrames len w, .waiting () ((slipCode.after .fresh w).data.take len).length
        (q.overlay ((slipCode.after .fresh w).data.take len)) (slipCode.after .fresh w).escaped⟩ := by
  obtain ⟨q, hq, hrun⟩ := serve_line len hlen (recvPackets_looksAt len) () p hp w
  exact ⟨q, hq, by rw [recvPackets, hrun, handleFrames_id]⟩

/-- The reference: cut the stream at the free ENDs, unescape each piece, discard those that hold
nothing and keep the first `len` bytes of the others. Each piece comes with what follows its END. -/
def slipGrammar (len : Nat) (w : List Byte) : List (List Byte × List Byte) :=
  (slipCode.parse w).map (fun f => (f.1.take len, f.2))

lemma slipFrames_eq_grammar (len : Nat) (w : List Byte) : slipFrames len w = slipGrammar len w := by
  rw [slipFrames, slipCode.feed_eq_parse, slipGrammar]

/-- What one call does on the stream `w` and the buffer `p`. -/
def CallFollowsGrammar (len : Nat) (p : Buf) (w : List Byte) : RecvResult (List Byte) → Prop
  | .returned received p' rest =>
    1 ≤ received ∧ received ≤ len ∧ p'.length = p.length ∧ p'.drop len = p.drop len ∧
      slipGrammar len w = (p'.take received, rest) :: slipGrammar len rest ∧
      ∃ skipped x, w = skipped ++ (x ++ slipEnd :: rest) ∧ (∀ c ∈ skipped, c = slipEnd) ∧
        slipCode.cut (x ++ slipEnd :: rest) = (x, rest) :: slipCode.cut rest ∧
        p'.take received = (slipCode.unescape x).take len
  | .waiting _ p' _ => slipGrammar len w = [] ∧ p'.length = p.length ∧ p'.drop len = p.drop len
  | .outOfBounds => False

lemma Buf.drop_overlay_take (p : Buf) (len : Nat) (d : List Byte) :
    (p.overlay (d.take len)).drop len = p.drop len := by
  have hk : (d.take len).length ≤ len := by simp
  rw [overlay, List.drop_append, List.drop_of_length_le hk, List.nil_append, List.drop_drop]
  congr 1
  omega

theorem recvPacket_follows_grammar (len : Nat) (hlen : 0 < len) (p : Buf) (hp : len ≤ p.length)
    (w : List Byte) : CallFollowsGrammar len p w (recvPacket lineSource len p w) := by
  have hover (d : List Byte) : (p.overlay (d.take len)).length = p.length :=
    p.length_overlay _ (by simp only [List.length_take]; omega)
  rw [recvPacket_line len p hlen hp, recvOutcome]
  cases hfeed : slipCode.feed .fresh w with
  | nil =>
    refine ⟨?_, hover _, p.drop_overlay_take len _⟩
    rw [← slipFrames_eq_grammar, slipFrames, hfeed, List.map_nil]
  | cons f l =>
    obtain ⟨d, rest⟩ := f
    obtain ⟨hl, -⟩ := slipCode.feed_tail _ _ _ _ _ hfeed
    obtain ⟨skipped, x, hw, hs, hx, hd⟩ := slipCode.feed_first w d rest l hfeed
    have hpos := List.length_pos_of_ne_nil (slipCode.feed_ne_nil .fresh w (d, rest) (by simp [hfeed]))
    refine ⟨?_, by simp, hover _, p.drop_overlay_take len _, ?_, skipped, x, hw, hs, hx, ?_⟩
    · simp only at hpos
      simp only [List.length_take]
      omega
    · rw [← slipFrames_eq_grammar, slipFrames, hfeed, List.map_cons, hl, Buf.take_overlay,
        ← slipFrames_eq_grammar, slipFrames]
    · rw [Buf.take_overlay, hd]

/-- On every byte stream and for every capacity the results of repeated calls of `recv_packet` are
those of the SLIP grammar, no call stores outside its capacity, and each consumes the stream up to
the END of its frame. -/
theorem recv_packet_implements_slip (len : Nat) (hlen : 0 < len) (p : Buf) (hp : len ≤ p.length)
    (w : List Byte) :
    (recvPackets lineSource len p w).turns = slipGrammar len w ∧
      (recvPackets lineSource len p w).stop ≠ .outOfBounds ∧
      ∀ (q : Buf) (s : List Byte), len ≤ q.length →
        CallFollowsGrammar len q s (recvPacket lineSource len q s) := by
  obtain ⟨q, -, hrun⟩ := recvPackets_line len hlen p hp w
  refine ⟨by rw [hrun, slipFrames_eq_grammar], by simp [hrun], ?_⟩
  intro q s hq
  exact recvPacket_follows_grammar len hlen q hq s

/-- Both escape pairs, two bytes behind an ESC that are in no pair, and a lone ESC at the end,
received with room for five bytes. -/
theorem recv_packet_implements_slip_witness :
    (recvPackets lineSource 5 [9, 9, 9, 9, 9, 9] [0o300, 1, 0o333, 0o334, 0o333, 0o335, 0o333, 9,
      0o333, 0o300, 2, 0o300, 0o300, 0o333]).turns = [([1, 0o300, 0o333, 9, 0o300],
        [0o300, 0o333])] :=
  (recv_packet_implements_slip 5 (by decide) [9, 9, 9, 9, 9, 9] (by decide) _).1.trans (by decide)

end EthoSlip
