import EthoSlip.Proofs.PbufPackets

/-!
# The pool as a store of packets

The calls that split, join, cut and fill chains do to the packets what the store says, and nothing
to those that they do not name. So the pool refines the store over every run of its clients.
-/

namespace EthoSlip
open Lib

namespace PacketStore

variable {n : ℕ} {σ σ' σ₁ : PacketStore n} {p q : Fin n} {k : StoredPacket} {r : PbufReply n}

/-- In terms of the bytes, `pbuf_realloc` keeps the first ones. -/
theorem Call.realloc_bytes {newLen : UInt16} (h : σ.Call (.realloc p newLen) r σ')
    (hk : σ p = some k) : (σ' p).map StoredPacket.bytes = some (k.bytes.take newLen.toNat) := by
  cases h with
  | @realloc _ k₁ k' _ hk₁ _ hk' =>
    rw [hk, Option.some.injEq] at hk₁
    rw [Function.update_self, Option.map_some, StoredPacket.bytes, hk', bytesOf_cutPieces, hk₁]
    rfl
  | @reallocShort _ k₁ _ hk₁ hle =>
    rw [hk, Option.some.injEq] at hk₁
    rw [hk, Option.map_some, List.take_of_length_le (hk₁ ▸ hle)]

/-- And `pbuf_free_header` all but the first ones. -/
theorem Call.freeHeader_bytes {size : UInt16} (h : σ.Call (.freeHeader p size) (.pbuf (some q)) σ')
    (hk : σ p = some k) : (σ' q).map StoredPacket.bytes = some (k.bytes.drop size.toNat) := by
  cases h with
  | @freeHeader _ _ k₁ k' _ hk₁ hk' _ _ =>
    rw [hk, Option.some.injEq] at hk₁
    rw [Function.update_self, Option.map_some, StoredPacket.bytes, hk', bytesOf_dropPieces, hk₁]
    rfl

/-- A header that was removed comes back when it is added again. -/
theorem Call.remove_add {d : ℕ} (hremove : σ.Call (.removeHeader p d) (.count 0) σ₁)
    (hadd : σ₁.Call (.addHeader p d) r σ') (hlen : σ.lengthAt p < 2 ^ 16) :
    r = .count 0 ∧ σ' = σ := by
  cases hremove with
  | @removeHeader _ k _ hk hd =>
    rw [lengthAt, hk, Option.map_some, Option.getD_some, StoredPacket.bytes, StoredPacket.pieces,
      bytesOf_cons, List.length_append] at hlen
    cases hadd with
    | @addHeader _ k₁ _ hk₁ _ _ =>
      rw [Function.update_self, Option.some.injEq] at hk₁
      subst hk₁
      refine ⟨rfl, ?_⟩
      rw [Function.update_idem, PacketPiece.reveal_hide hd]
      exact (congrArg (Function.update σ p) hk.symm).trans (Function.update_eq_self p σ)
    | @addHeaderFails _ k₁ _ hk₁ hfails =>
      rw [Function.update_self, Option.some.injEq] at hk₁
      subst hk₁
      exfalso
      apply hfails
      constructor
      · rw [PacketPiece.hide, List.length_append, List.length_take_of_le hd]
        omega
      · have hbytes : (StoredPacket.mk (k.first.hide d) k.rest).bytes =
            k.first.bytes.drop d ++ bytesOf k.rest := rfl
        rw [hbytes, List.length_append, List.length_drop]
        omega

end PacketStore

namespace PbufClients

variable {n : ℕ} {s : PbufClients n} {p t : Fin n}

/-- The call does what the store says. -/
def Matched (s : PbufClients n) (op : PbufOp n) : Prop :=
  ∃ s' r, s.call op = some (s', r) ∧ Exclusive s' ∧ PacketStore.Call s.packets op r s'.packets

namespace Exclusive

lemma alloc (h : Exclusive s) (layer : PbufLayer) (length : UInt16) :
    s.Matched (.alloc layer length) := by
  obtain ⟨hfail, hgo⟩ := h.sound.alloc layer length
  have hfree := h.tab_add_used
  rcases Nat.lt_or_ge s.pool.tab.length (layer.segments length.toNat) with hless | hle
  · have hcall : s.call (.alloc layer length) =
        some (⟨s.pool.exhausted, s.held⟩, .pbuf none) := by
      rw [call, hfail hless]
      rfl
    have hpackets : packets ⟨s.pool.exhausted, s.held⟩ = s.packets := by
      funext q
      by_cases hq : q ∈ s.held
      · have hsame : s.pool.exhausted.packetAt q = s.pool.packetAt q :=
          PbufPool.packetAt_congr (h.linked q) (fun _ _ => rfl) (fun _ _ => rfl)
        rw [packets_eq hq, ← hsame]
        exact packets_eq hq
      · rw [packets_eq_none hq]
        exact packets_eq_none hq
    refine ⟨_, _, hcall, ⟨accounted_of_call h.toAccounted hcall trivial, h.nodup, h.heads⟩, ?_⟩
    rw [hpackets]
    exact .allocNone (by omega)
  · obtain ⟨m', p, l, hm', -, hnew⟩ := hgo hle
    obtain ⟨c, hp, -, hpayload⟩ := hnew.first
    have hlinked := hnew.thread
    have hcall : s.call (.alloc layer length) =
        some (⟨m', p ::ₘ s.held⟩, .pbuf (some p)) := by
      rw [call, hm']
      rfl
    have hfresh : ∀ a ∈ l, s.pool.cell a = none := by
      intro a ha
      apply (h.sound.mem_tab a).mp
      rw [hnew.tab]
      exact List.mem_append_left _ ha
    have hunheld : ∀ a ∈ l, a ∉ s.held := by
      intro a ha hheld
      obtain ⟨d, hd⟩ := h.exists_cell hheld
      rw [hfresh a ha] at hd
      cases hd
    have hpheld := hunheld p hlinked.mem_head
    have hother : ∀ q ∈ s.held, m'.packetAt q = s.pool.packetAt q := by
      intro q hq
      apply PbufPool.packetAt_congr (h.linked q)
      · intro a ha
        apply hnew.outside
        intro hal
        obtain ⟨d, hd⟩ := h.live hq a ha
        rw [hfresh a hal] at hd
        cases hd
      · exact fun a _ => congrFun hnew.memory a
    have hpackets : packets ⟨m', p ::ₘ s.held⟩ =
        Function.update s.packets p (some (m'.packetAt p)) := by
      apply packets_update
      · exact packets_eq (Multiset.mem_cons_self ..)
      · intro q hqp
        rw [Multiset.mem_cons, or_iff_right hqp]
      · exact fun q hq _ => hother q hq
    refine ⟨_, _, hcall, ⟨accounted_of_call h.toAccounted hcall trivial, ?_, ?_⟩, ?_⟩
    · exact Multiset.nodup_cons.mpr ⟨hpheld, h.nodup⟩
    · intro q hq b hb
      rcases Multiset.mem_cons.mp hq with hqp | hq
      · rw [hqp] at hb
        exact (hnew.sound.counted.sole (hnew.sole p hlinked.mem_head)).1 b hb
      · by_cases hbl : b ∈ l
        · exact hunheld q (hlinked.next_mem hbl hb) hq
        · apply h.heads q hq b
          rw [← hb]
          change PbufPool.nextOf s.pool b = PbufPool.nextOf m' b
          rw [PbufPool.nextOf, PbufPool.nextOf, hnew.outside b hbl]
    · rw [hpackets]
      exact .alloc (by omega) (packets_eq_none hpheld) hnew.fresh

lemma free (h : Exclusive s) (hp : p ∈ s.held) : s.Matched (.free p) := by
  have hl := h.linked p
  have hfree := PbufPool.pbufFreeLoop_sole hl (h.ref_eq_one hp) (PbufPool.Owned.thread_length_le hl) 0
  set m' : PbufPool n := { s.pool with
    cell := fun a => if a ∈ s.pool.chainAt p then none else s.pool.cell a
    tab := (s.pool.chainAt p).reverse ++ s.pool.tab } with hm'
  have hcall : s.call (.free p) = some (⟨m', s.held.erase p⟩,
      .count (UInt8.ofNat (s.pool.packetAt p).pieces.length)) := by
    rw [call, PbufPool.pbufFree, hfree, UInt8.zero_add, PbufPool.pieces_packetAt hl, List.length_map]
    rfl
  have hcell : ∀ a ∉ s.pool.chainAt p, m'.cell a = s.pool.cell a := fun a ha => if_neg ha
  have hgone : p ∉ s.held.erase p := h.nodup.notMem_erase
  have hpackets : packets ⟨m', s.held.erase p⟩ = Function.update s.packets p none := by
    apply packets_update
    · exact packets_eq_none hgone
    · exact fun q hqp => Multiset.mem_erase_of_ne hqp
    · exact fun q hq hqp => h.packetAt_frame hp hq hqp hcell (fun _ _ => rfl)
  refine ⟨_, _, hcall, ⟨accounted_of_call h.toAccounted hcall hp, h.nodup.erase p, ?_⟩, ?_⟩
  · intro q hq b hb
    apply h.heads q (Multiset.mem_of_mem_erase hq) b
    change m'.nextOf b = some q at hb
    by_cases hbl : b ∈ s.pool.chainAt p
    · have hnone : m'.cell b = none := if_pos hbl
      rw [PbufPool.nextOf_free hnone] at hb
      cases hb
    · rw [PbufPool.nextOf, hcell b hbl] at hb
      exact hb
  · rw [hpackets]
    exact .free (packets_eq hp)

lemma cat (h : Exclusive s) (hop : s.packets.Admits (.cat p t)) : s.Matched (.cat p t) := by
  have hallowed := h.allowed hop
  have hp := packets_isSome.mp hop.1
  have ht := packets_isSome.mp hop.2.1
  have hpt := hop.2.2.1
  obtain ⟨c, hc⟩ := h.exists_cell hp
  obtain ⟨tail, htail⟩ := h.exists_cell ht
  have hl := h.linked p
  have hsound := h.sound
  rw [← Multiset.cons_erase ht] at hsound
  obtain ⟨hm', hsound', hlinked⟩ :=
    hsound.cat hc (h.heads p hp) htail (h.heads t ht) hpt hl (h.linked t)
  set m' := s.pool.mapCells (s.pool.chainAt p) (PbufPool.catCell tail.totLen t) with hdef
  have hcall : s.call (.cat p t) = some (⟨m', s.held.erase t⟩, .void) := by
    rw [call, hm']
    rfl
  have hcell : ∀ a ∉ s.pool.chainAt p, m'.cell a = s.pool.cell a :=
    fun a ha => PbufPool.cell_mapCells_of_notMem ha
  have hgone : t ∉ s.held.erase t := h.nodup.notMem_erase
  have hpheld : p ∈ s.held.erase t := (Multiset.mem_erase_of_ne hpt).mpr hp
  have hmapped : ∀ a d, a ∈ s.pool.chainAt p → s.pool.cell a = some d →
      m'.cell a = some (PbufPool.catCell tail.totLen t d) := by
    intro a d ha hd
    rw [hdef, PbufPool.cell_mapCells_of_mem ha, hd, Option.map_some]
  have hpiece : ∀ a, m'.piece a = s.pool.piece a := by
    intro a
    by_cases ha : a ∈ s.pool.chainAt p
    · obtain ⟨d, hd⟩ := h.live hp a ha
      exact PbufPool.piece_congr hd (hmapped a d ha hd) rfl rfl rfl
    · rw [PbufPool.piece, PbufPool.piece, PbufPool.headroom, PbufPool.headroom, PbufPool.segment,
        PbufPool.segment, hcell a ha]
      rfl
  have hpacket : m'.packetAt p = ⟨(s.pool.packetAt p).first,
      (s.pool.packetAt p).rest ++ (s.pool.packetAt t).pieces⟩ := by
    apply StoredPacket.ext_pieces
    rw [PbufPool.pieces_packetAt hlinked, funext hpiece, List.map_append,
      ← PbufPool.pieces_packetAt hl, ← PbufPool.pieces_packetAt (h.linked t)]
    rfl
  have hpackets : packets ⟨m', s.held.erase t⟩ =
      Function.update (Function.update s.packets t none) p (some (m'.packetAt p)) := by
    rw [← h.packets_erase]
    apply packets_update
    · exact packets_eq hpheld
    · exact fun _ _ => Iff.rfl
    · intro q hq hqp
      exact h.packetAt_frame hp (Multiset.mem_of_mem_erase hq) hqp hcell (fun _ _ => rfl)
  refine ⟨_, _, hcall, ⟨accounted_of_call h.toAccounted hcall hallowed, h.nodup.erase t, ?_⟩, ?_⟩
  · intro q hq b hb
    obtain ⟨x, hx, hlast⟩ := hl.exists_last
    have hnext := PbufPool.nextOf_catCell (t := t) hl hx hlast (h.live hp) tail.totLen
    change m'.nextOf b = some q at hb
    rw [hnext] at hb
    by_cases hbx : b = x
    · rw [hbx, Function.update_self, Option.some.injEq] at hb
      exact hgone (hb ▸ hq)
    · rw [Function.update_of_ne hbx] at hb
      exact h.heads q (Multiset.mem_of_mem_erase hq) b hb
  · rw [hpackets, hpacket]
    exact .cat (packets_eq hp) (packets_eq ht)

lemma dechain (h : Exclusive s) (hp : p ∈ s.held) : s.Matched (.dechain p) := by
  obtain ⟨c, hc⟩ := h.exists_cell hp
  have hl := h.linked p
  obtain ⟨l, hpl, hbehind⟩ := hl.eq_cons
  have hnotMem : p ∉ l := by
    have hnodup := hl.nodup
    rw [hpl] at hnodup
    exact (List.nodup_cons.mp hnodup).1
  have hpk := packets_eq hp
  rw [PbufPool.packetAt_eq (hpl ▸ hl)] at hpk
  rw [PbufPool.nextOf_eq hc] at hbehind
  obtain ⟨m', rest, hm', -, hrecounted, hrest⟩ :=
    (h.sound.dechain hc (h.heads p hp) hbehind).1 (h.unwrapped p c hc)
  have hrest := hrest (fun a ha => h.ref_eq_one hp a (by rw [hpl]; exact List.mem_cons_of_mem p ha))
  have hcall : s.call (.dechain p) = some (⟨m', s.held⟩, .pbuf rest) := by
    rw [call, hm']
    rfl
  have hcp : m'.cell p = some { c with next := none, totLen := c.len } := by
    rw [hrecounted.outside p hnotMem, PbufPool.cell_set]
  have hpacket : m'.packetAt p = ⟨s.pool.piece p, []⟩ := by
    have hlinked : Linked m'.nextOf (some p) [p] := by
      apply Linked.cons
      rw [PbufPool.nextOf_eq hcp]
      exact Linked.nil
    rw [PbufPool.packetAt_eq hlinked,
      PbufPool.piece_congr hc hcp rfl rfl (congrFun hrecounted.memory p), List.map_nil]
  obtain ⟨hexclusive, hpackets⟩ := h.single hp
    (accounted_of_call h.toAccounted hcall (h.head hp))
    (fun a b hb => by
      have hb := hrecounted.links hb
      rw [PbufPool.nextOf_set] at hb
      exact PbufPool.links_update_none hb)
    (fun a ha => by
      rw [hpl, List.mem_cons, not_or] at ha
      rw [hrecounted.outside a ha.2, PbufPool.cell_set_of_ne ha.1])
    (fun a _ => congrFun hrecounted.memory a)
  refine ⟨_, _, hcall, hexclusive, ?_⟩
  rw [hpackets, hpacket]
  -- the count of what is given back is zero also where that is a multiple of 256
  have hcount : 0 < UInt8.ofNat l.length ↔ l.length % 256 ≠ 0 := by
    rw [UInt8.lt_iff_toNat_lt, UInt8.toNat_ofNat']
    exact Nat.pos_iff_ne_zero
  by_cases hwraps : l ≠ [] ∧ l.length % 256 = 0
  · rw [if_neg (by rw [hcount, not_not]; exact hwraps.2)] at hrest
    obtain ⟨q, hq⟩ : ∃ q, c.next = some q := by
      cases hq : c.next with
      | none =>
        rw [hq] at hbehind
        cases hbehind
        exact absurd rfl hwraps.1
      | some q => exact ⟨q, rfl⟩
    have hunheld : q ∉ s.held := fun hheld =>
      h.heads q hheld p ((PbufPool.nextOf_eq hc).trans hq)
    rw [hrest, hq]
    exact .dechainWraps hpk (by simpa using hwraps.1) (by rw [List.length_map]; exact hwraps.2)
      (packets_eq_none hunheld)
  · have hnone : rest = none := by
      rw [hrest]
      rcases not_and_or.mp hwraps with hnil | hnonzero
      · rw [not_not] at hnil
        rw [hnil] at hbehind ⊢
        cases hnext : c.next with
        | none => rfl
        | some q =>
          rw [hnext] at hbehind
          cases hbehind
      · rw [if_pos (hcount.mpr hnonzero)]
    rw [hnone]
    exact .dechain hpk (by simpa using hwraps)

lemma removeHeader (h : Exclusive s) {decrement : ℕ}
    (hop : s.packets.Admits (.removeHeader p decrement)) :
    s.Matched (.removeHeader p decrement) := by
  have hallowed := h.allowed hop
  have hp := packets_isSome.mp hop.1
  obtain ⟨c, hc⟩ := h.exists_cell hp
  have hl := h.linked p
  obtain ⟨l, hpl, -⟩ := hl.eq_cons
  have hpk := packets_eq hp
  rw [PbufPool.packetAt_eq (hpl ▸ hl)] at hpk
  have hm' := PbufPool.pbufRemoveHeader_eq hc decrement
  by_cases hle : decrement ≤ c.len.toNat
  · rw [if_pos hle] at hm'
    set m' := s.pool.set p (PbufPool.hideCell decrement c) with hdef
    have hcall : s.call (.removeHeader p decrement) = some (⟨m', s.held⟩, .count 0) := by
      rw [call, hm']
      rfl
    have hnextOf : m'.nextOf = s.pool.nextOf := by
      rw [hdef, PbufPool.nextOf_set, PbufPool.hideCell, PbufPool.update_nextOf hc]
    obtain ⟨hexclusive, hpackets⟩ := h.setFirst hp hpl hnextOf
      (accounted_of_call h.toAccounted hcall hallowed)
    refine ⟨_, _, hcall, hexclusive, ?_⟩
    rw [hpackets, PbufPool.piece_hide hc (PbufPool.cell_set _ _ _) hle rfl]
    apply PacketStore.Call.removeHeader hpk
    rw [← PbufPool.lenOf_eq hc] at hle
    exact (h.sound.length_segment p).symm ▸ hle
  · have hlong := hallowed.2
    rw [PbufPool.lenOf_eq hc] at hlong
    have hlong := hlong.resolve_left hle
    rw [if_neg hle, if_pos hlong] at hm'
    refine ⟨s, .count 1, ?_, h, .removeHeaderFails hlong⟩
    rw [call, hm']
    rfl

lemma addHeader (h : Exclusive s) (hp : p ∈ s.held) (increment : ℕ) :
    s.Matched (.addHeader p increment) := by
  obtain ⟨c, hc⟩ := h.exists_cell hp
  have hl := h.linked p
  obtain ⟨l, hpl, -⟩ := hl.eq_cons
  have hpk := packets_eq hp
  have hwindow := h.sound.window p c hc
  have hroomLength : (s.pool.packetAt p).first.headroom.length = c.payload := by
    change (s.pool.headroom p).length = _
    rw [PbufPool.headroom_eq hc, List.length_take, Vector.length_toList]
    omega
  have hbytesLength : (s.pool.packetAt p).bytes.length = c.totLen.toNat := by
    rw [PbufPool.bytes_packetAt hl, h.sound.length_contents, h.sound.toNat_totLen h.unwrapped hc hl]
  have hm' := PbufPool.pbufAddHeader_eq hc (le_of_add_le_left hwindow) increment
  by_cases hroom : increment ≤ c.payload ∧ increment + c.totLen.toNat < 2 ^ 16
  · rw [if_pos hroom] at hm'
    set m' := s.pool.set p (PbufPool.revealCell increment c) with hdef
    have hcall : s.call (.addHeader p increment) = some (⟨m', s.held⟩, .count 0) := by
      rw [call, hm']
      rfl
    have hnextOf : m'.nextOf = s.pool.nextOf := by
      rw [hdef, PbufPool.nextOf_set, PbufPool.revealCell, PbufPool.update_nextOf hc]
    obtain ⟨hexclusive, hpackets⟩ := h.setFirst hp hpl hnextOf
      (accounted_of_call h.toAccounted hcall (h.head hp))
    refine ⟨_, _, hcall, hexclusive, ?_⟩
    have hle := hroom.1
    rw [← hroomLength, ← hbytesLength] at hroom
    rw [PbufPool.packetAt_eq (hpl ▸ hl)] at hpk hroom
    rw [hpackets, PbufPool.piece_reveal hc (PbufPool.cell_set _ _ _) hle hwindow rfl]
    exact .addHeader hpk hroom.1 hroom.2
  · rw [if_neg hroom] at hm'
    rw [← hroomLength, ← hbytesLength] at hroom
    refine ⟨s, .count 1, ?_, h, .addHeaderFails hpk hroom⟩
    rw [call, hm']
    rfl

lemma realloc (h : Exclusive s) (hp : p ∈ s.held) (newLen : UInt16) :
    s.Matched (.realloc p newLen) := by
  obtain ⟨c', hc'⟩ := h.exists_cell hp
  have hl := h.linked p
  have hpk := packets_eq hp
  have hlength : (s.pool.packetAt p).bytes.length = c'.totLen.toNat := by
    rw [PbufPool.bytes_packetAt hl, h.sound.length_contents,
      h.sound.toNat_totLen h.unwrapped hc' hl]
  by_cases hle : c'.totLen ≤ newLen
  · have hm' : s.pool.pbufRealloc p newLen = some s.pool := by
      rw [PbufPool.pbufRealloc, hc', Option.bind_eq_bind, Option.bind_some, if_pos hle]
      rfl
    refine ⟨s, .void, ?_, h, .reallocShort hpk ?_⟩
    · rw [call, hm']
      rfl
    · rw [hlength]
      exact UInt16.le_iff_toNat_le.mp hle
  · obtain ⟨m', l₁, q, l₂, c, rem, hm', -, hpl, hq, hrem, hsplit, hpos, hrecounted⟩ :=
      h.sound.realloc hc' (h.heads p hp) hl hle
    set shrink := c'.totLen - newLen with hshrink
    have hcall : s.call (.realloc p newLen) = some (⟨m', s.held⟩, .void) := by
      rw [call, hm']
      rfl
    have hl' := hl
    rw [hpl] at hl'
    have hnodup := List.nodup_append.mp hl'.nodup
    have hql₁ : q ∉ l₁ := fun hmem => hnodup.2.2 q hmem q (List.mem_cons_self ..) rfl
    have hkept : ∀ a ∈ l₁ ++ [q], m'.cell a = (PbufPool.Sound.shrunk s.pool l₁ q c shrink rem).cell a := by
      intro a ha
      apply hrecounted.outside
      intro hal₂
      rcases List.mem_append.mp ha with hal₁ | haq
      · exact hnodup.2.2 a hal₁ a (List.mem_cons_of_mem q hal₂) rfl
      · rw [List.mem_singleton.mp haq] at hal₂
        exact (List.nodup_cons.mp hnodup.2.1).1 hal₂
    have hcq : m'.cell q = some { c with len := rem, totLen := rem, next := none } := by
      rw [hkept q (by simp), PbufPool.Sound.shrunk, PbufPool.cell_set]
    have hc₁ : ∀ a ∈ l₁, ∀ d, s.pool.cell a = some d →
        m'.cell a = some (PbufPool.shrinkCell shrink d) := by
      intro a ha d hd
      have haq : a ≠ q := by
        rintro rfl
        exact hql₁ ha
      rw [hkept a (List.mem_append_left _ ha), PbufPool.Sound.shrunk, PbufPool.cell_set_of_ne haq,
        PbufPool.cell_mapCells_of_mem ha, hd, Option.map_some]
    have hlinked : Linked m'.nextOf (some p) (l₁ ++ [q]) := by
      apply (PbufPool.thread_shrunk hl' shrink rem).congr
      intro a ha
      rw [PbufPool.nextOf, hkept a ha, PbufPool.nextOf]
    have hfirst : l₁.map m'.piece = l₁.map s.pool.piece := by
      apply List.map_congr_left
      intro a ha
      obtain ⟨d, hd⟩ := h.live hp a (by rw [hpl]; exact List.mem_append_left _ ha)
      exact PbufPool.piece_congr hd (hc₁ a ha d hd) rfl rfl (congrFun hrecounted.memory a)
    have hlast : m'.piece q = ⟨s.pool.headroom q, (s.pool.segment q).take rem.toNat⟩ := by
      have hmemory : m'.memory q = s.pool.memory q := congrFun hrecounted.memory q
      rw [PbufPool.piece, PbufPool.headroom_eq hcq, PbufPool.headroom_eq hq, PbufPool.segment_eq hcq,
        PbufPool.segment_eq hq, hmemory, List.take_take,
        min_eq_left (UInt16.le_iff_toNat_le.mp hrem)]
    have hpieces : (m'.packetAt p).pieces =
        cutPieces newLen.toNat (s.pool.packetAt p).pieces := by
      have hrem' : rem.toNat ≤ (s.pool.piece q).bytes.length := by
        change _ ≤ (s.pool.segment q).length
        rw [h.sound.length_segment, PbufPool.lenOf_eq hq]
        exact UInt16.le_iff_toNat_le.mp hrem
      have hcut : cutPieces ((bytesOf (l₁.map s.pool.piece)).length + rem.toNat)
          (l₁.map s.pool.piece ++ s.pool.piece q :: l₂.map s.pool.piece) = _ :=
        cutPieces_append hrem' (fun hne => hpos (fun hnil => hne (by rw [hnil, List.map_nil])))
      rw [PbufPool.bytesOf_map_piece, h.sound.length_contents, ← hsplit, ← List.map_cons,
        ← List.map_append, ← hpl] at hcut
      rw [PbufPool.pieces_packetAt hlinked, PbufPool.pieces_packetAt hl, hcut, List.map_append,
        List.map_singleton, hfirst, hlast]
      rfl
    obtain ⟨hexclusive, hpackets⟩ := h.single hp
      (accounted_of_call h.toAccounted hcall (h.head hp))
      (fun a b hb => by
        have hb := hrecounted.links hb
        rw [PbufPool.Sound.shrunk, PbufPool.nextOf_set, PbufPool.Sound.nextOf_shrinkCell] at hb
        exact PbufPool.links_update_none hb)
      (fun a ha => by
        rw [hpl, List.mem_append, List.mem_cons, not_or, not_or] at ha
        rw [hrecounted.outside a ha.2.2, PbufPool.Sound.shrunk, PbufPool.cell_set_of_ne ha.2.1,
          PbufPool.cell_mapCells_of_notMem ha.1])
      (fun a _ => congrFun hrecounted.memory a)
    refine ⟨_, _, hcall, hexclusive, ?_⟩
    rw [hpackets]
    apply PacketStore.Call.realloc hpk _ hpieces
    rw [hlength]
    exact UInt16.lt_iff_toNat_lt.mp (UInt16.not_le.mp hle)

lemma freeHeader (h : Exclusive s) (hp : p ∈ s.held) (size : UInt16) :
    s.Matched (.freeHeader p size) := by
  have hl := h.linked p
  have hpk := packets_eq hp
  have hsound := h.sound
  rw [← Multiset.cons_erase hp] at hsound
  obtain ⟨m', rest, l₁, l₂, hm', hsound', hsplit, hlinked, hmemory, houtside, hgone, hpieces, hend⟩ :=
    PbufPool.Sound.freeHeaderLoop (p := some p) hsound hl (h.ref_eq_one hp) size
      ((PbufPool.Owned.thread_length_le hl).trans (Nat.le_succ n))
  have hcall : s.call (.freeHeader p size) =
      some (⟨m', hold (s.held.erase p) rest⟩, .pbuf rest) := by
    rw [call, PbufPool.pbufFreeHeader, hm']
    rfl
  have hs' := accounted_of_call h.toAccounted hcall ⟨hp, h.ref_eq_one hp⟩
  have hperase : p ∉ s.held.erase p := h.nodup.notMem_erase
  -- every packet but this one
  have hother : ∀ q ∈ s.held.erase p, m'.packetAt q = s.pool.packetAt q := by
    intro q hq
    have hqp : q ≠ p := by
      rintro rfl
      exact hperase hq
    exact h.packetAt_frame hp (Multiset.mem_of_mem_erase hq) hqp houtside
      (fun a _ => congrFun hmemory a)
  have herase : ∀ q ≠ p, q ∈ s.held → q ∈ s.held.erase p := fun q hqp hq =>
    (Multiset.mem_erase_of_ne hqp).mpr hq
  rw [← PbufPool.pieces_packetAt hl] at hpieces
  rcases hend with hnone | ⟨q, c, d, l₃, hq, hl₂, hc, hd, hcq, hl₃⟩
  · have hl₂ : l₂ = [] := by
      rw [hnone] at hlinked
      cases hlinked
      rfl
    subst hnone
    rw [hl₂, List.append_nil] at hsplit
    rw [hl₂, List.map_nil] at hpieces
    have hlinks : ∀ a b, m'.nextOf a = some b → s.pool.nextOf a = some b := by
      intro a b hb
      by_cases ha : a ∈ s.pool.chainAt p
      · rw [PbufPool.nextOf_free (hgone a (hsplit ▸ ha))] at hb
        cases hb
      · rw [PbufPool.nextOf, houtside a ha] at hb
        exact hb
    have hpackets : packets ⟨m', s.held.erase p⟩ = Function.update s.packets p none := by
      apply packets_update
      · exact packets_eq_none hperase
      · exact fun q hqp => Multiset.mem_erase_of_ne hqp
      · exact fun q hq hqp => hother q (herase q hqp hq)
    refine ⟨_, _, hcall, ⟨hs', h.nodup.erase p, ?_⟩, ?_⟩
    · exact fun r hr b hb => h.heads r (Multiset.mem_of_mem_erase hr) b (hlinks b r hb)
    · change s.packets.Call _ _ (packets ⟨m', s.held.erase p⟩)
      rw [hpackets]
      exact .freeHeaderAll hpk hpieces.symm
  · subst hq
    have hql : q ∈ s.pool.chainAt p := by
      rw [hsplit, hl₂]
      simp
    have hqerase : q ∉ s.held.erase p := by
      intro hmem
      have hqp : q ≠ p := by
        rintro rfl
        exact hperase hmem
      exact h.disjoint hp (Multiset.mem_of_mem_erase hmem) hqp.symm hql (h.linked q).mem_head
    have hlinks : ∀ a b, m'.nextOf a = some b → s.pool.nextOf a = some b := by
      intro a b hb
      by_cases ha : a ∈ s.pool.chainAt p
      · rw [hsplit, hl₂, List.mem_append, List.mem_cons] at ha
        rcases ha with hal₁ | haq | hal₃
        · rw [PbufPool.nextOf_free (hgone a hal₁)] at hb
          cases hb
        · rw [haq, PbufPool.nextOf_eq hcq] at hb
          rw [haq, PbufPool.nextOf_eq hc]
          exact hb
        · rw [PbufPool.nextOf, hl₃ a hal₃] at hb
          exact hb
      · rw [PbufPool.nextOf, houtside a ha] at hb
        exact hb
    have hqhead : IsHead m'.nextOf q := by
      have hone : m'.refOf q = 1 := by
        have hrefq := h.ref_eq_one hp q hql
        rw [PbufPool.refOf_eq hc] at hrefq
        rw [PbufPool.refOf_eq hcq]
        exact hrefq
      exact (hsound'.counted.sole hone).1
    -- the head is the same exactly when no element has been given back
    have hsame : q = p ↔ l₁ = [] := by
      have hl' := hl
      rw [hsplit, hl₂] at hl'
      exact hl'.first_iff
    have hpackets : packets ⟨m', q ::ₘ s.held.erase p⟩ =
        Function.update (Function.update s.packets p none) q (some (m'.packetAt q)) := by
      rw [← h.packets_erase]
      apply packets_update
      · exact packets_eq (Multiset.mem_cons_self ..)
      · intro r hrq
        rw [Multiset.mem_cons, or_iff_right hrq]
      · exact fun r hr _ => hother r hr
    refine ⟨_, _, hcall, ⟨hs', Multiset.nodup_cons.mpr ⟨hqerase, h.nodup.erase p⟩, ?_⟩, ?_⟩
    · intro r hr b hb
      rcases Multiset.mem_cons.mp hr with hrq | hr
      · rw [hrq] at hb
        exact hqhead b hb
      · exact h.heads r (Multiset.mem_of_mem_erase hr) b (hlinks b r hb)
    · change s.packets.Call _ _ (packets ⟨m', q ::ₘ s.held.erase p⟩)
      rw [hpackets]
      apply PacketStore.Call.freeHeader hpk
      · rw [PbufPool.pieces_packetAt hlinked, hpieces]
      · rw [hsame, PbufPool.pieces_packetAt hlinked, PbufPool.pieces_packetAt hl, List.length_map,
          List.length_map, hsplit, List.length_append, ← List.length_eq_zero_iff]
        omega
      · exact fun hqp => packets_eq_none (fun hmem => hqerase (herase q hqp hmem))

lemma take (h : Exclusive s) {dataptr : Buf} {len : UInt16}
    (hop : s.packets.Admits (.take p dataptr len)) : s.Matched (.take p dataptr len) := by
  obtain ⟨-, hroom, hdata⟩ := h.allowed hop
  have hp := packets_isSome.mp hop.1
  obtain ⟨c, hc⟩ := h.exists_cell hp
  have hl := h.linked p
  rw [PbufPool.totOf_some hc] at hroom
  obtain ⟨m', hm', -, hcell, houtside, hpieces⟩ := h.sound.take hc hl hroom hdata
  have hcall : s.call (.take p dataptr len) = some (⟨m', s.held⟩, .err errOk) := by
    rw [call, hm']
    rfl
  have hnextOf : m'.nextOf = s.pool.nextOf := by
    funext a
    rw [PbufPool.nextOf, hcell, PbufPool.nextOf]
  obtain ⟨hexclusive, hpackets⟩ := h.single hp
    (accounted_of_call h.toAccounted hcall (h.allowed hop))
    (fun a b hb => by rw [← hnextOf]; exact hb) (fun a _ => congrFun hcell a) houtside
  refine ⟨_, _, hcall, hexclusive, ?_⟩
  rw [hpackets]
  apply PacketStore.Call.take (packets_eq hp)
  rw [PbufPool.pieces_packetAt (hnextOf ▸ hl), PbufPool.pieces_packetAt hl, hpieces]

lemma copyPartial (h : Exclusive s) (hp : p ∈ s.held) {dataptr : Buf} {len : UInt16}
    (offset : UInt16) (hdata : len.toNat ≤ dataptr.length) :
    s.Matched (.copyPartial p dataptr len offset) := by
  have hallowed : Allowed s (.copyPartial p dataptr len offset) := ⟨(h.head hp).1, hdata⟩
  obtain ⟨copied, hcall, hcopied⟩ := h.toAccounted.copyPartial hallowed
  have hspec : s.packets.Call (.copyPartial p dataptr len offset) _ _ :=
    .copyPartial (packets_eq hp) (by rw [PbufPool.bytes_packetAt (h.linked p)]; exact hcopied)
  rw [PbufPool.bytes_packetAt (h.linked p)] at hspec
  exact ⟨s, _, hcall, h, hspec⟩

end Exclusive

lemma call_matched (h : Exclusive s) {op : PbufOp n} (hop : s.packets.Admits op) : s.Matched op := by
  cases op with
  | alloc layer length => exact h.alloc layer length
  | ref p => exact hop.elim
  | free p => exact h.free (packets_isSome.mp hop)
  | cat p t => exact h.cat hop
  | chain p t => exact hop.elim
  | dechain p => exact h.dechain (packets_isSome.mp hop)
  | realloc p newLen => exact h.realloc (packets_isSome.mp hop) newLen
  | removeHeader p decrement => exact h.removeHeader hop
  | addHeader p increment => exact h.addHeader (packets_isSome.mp hop) increment
  | freeHeader p size => exact h.freeHeader (packets_isSome.mp hop) size
  | take p dataptr len => exact h.take hop
  | copyPartial p dataptr len offset => exact h.copyPartial (packets_isSome.mp hop.1) offset hop.2

lemma packets_init (memory : Fin n → Vector Byte pbufPoolBufsize) :
    (init memory).packets = fun _ => none := by
  funext p
  exact if_neg (Multiset.notMem_zero p)

/-- The pool is a store of packets: clients that name the packets that they own, each of them once, and
ask for no more than the assertions of `pbuf.c` allow, see what the store says. Every call returns,
with the result that the store gives it, and the packets in the pool are those of the store. -/
theorem pool_refines_store (memory : Fin n → Vector Byte pbufPoolBufsize) (ops : List (PbufOp n))
    (h : Guarded step (fun s op => s.packets.Admits op) (init memory) ops) :
    ∃ s rs, runResults call (init memory) ops = some (s, rs) ∧ rs.length = ops.length ∧
      SpecRun PacketStore.Call (fun _ => none) (ops.zip rs) s.packets := by
  have hstep : ∀ (s : PbufClients n) σ op, Exclusive s ∧ σ = s.packets → s.packets.Admits op →
      ∃ s' r σ', s.call op = some (s', r) ∧ PacketStore.Call σ op r σ' ∧
        Exclusive s' ∧ σ' = s'.packets := by
    rintro s _ op ⟨hs, rfl⟩ hop
    obtain ⟨s', r, hcall, hs', hspec⟩ := call_matched hs hop
    exact ⟨s', r, _, hcall, hspec, hs', rfl⟩
  obtain ⟨s, rs, σ, hrun, hlength, hspec, -, rfl⟩ :=
    runResults_refines hstep ⟨Exclusive.init memory, rfl⟩ h
  rw [packets_init] at hspec
  exact ⟨s, rs, hrun, hlength, hspec⟩

/-- Two packets are joined and cut, up to the second element of the first one; the last allocation is
for more than is left. -/
theorem pool_refines_store_witness :
    ∃ s, runResults call (init (fun _ : Fin 4 => Vector.replicate pbufPoolBufsize 0))
        [.alloc .transport 600, .alloc .raw 10, .take 3 [1, 2, 3] 3, .cat 3 1, .removeHeader 3 14,
          .addHeader 3 20, .copyPartial 3 [9, 9, 9, 9] 3 5, .freeHeader 3 600, .realloc 2 8,
          .dechain 2, .removeHeader 2 0x10000, .alloc .ip 2000, .free 2] =
        some (s, [.pbuf (some 3), .pbuf (some 1), .err errOk, .void, .count 0, .count 0,
          .bytes [0, 1, 2, 9] 3, .pbuf (some 2), .void, .pbuf none, .count 1, .pbuf none,
          .count 1]) ∧
      SpecRun PacketStore.Call (fun _ => none)
        [(.alloc .transport 600, .pbuf (some 3)), (.alloc .raw 10, .pbuf (some 1)),
          (.take 3 [1, 2, 3] 3, .err errOk), (.cat 3 1, .void), (.removeHeader 3 14, .count 0),
          (.addHeader 3 20, .count 0), (.copyPartial 3 [9, 9, 9, 9] 3 5, .bytes [0, 1, 2, 9] 3),
          (.freeHeader 3 600, .pbuf (some 2)), (.realloc 2 8, .void), (.dechain 2, .pbuf none),
          (.removeHeader 2 0x10000, .count 1), (.alloc .ip 2000, .pbuf none), (.free 2, .count 1)]
        s.packets := by
  obtain ⟨s, rs, hrun, -, hspec⟩ :=
    pool_refines_store (fun _ : Fin 4 => Vector.replicate pbufPoolBufsize 0)
      [.alloc .transport 600, .alloc .raw 10, .take 3 [1, 2, 3] 3, .cat 3 1, .removeHeader 3 14,
        .addHeader 3 20, .copyPartial 3 [9, 9, 9, 9] 3 5, .freeHeader 3 600, .realloc 2 8,
        .dechain 2, .removeHeader 2 0x10000, .alloc .ip 2000, .free 2] (by decide +kernel)
  have hreplies : (runResults call (init (fun _ : Fin 4 => Vector.replicate pbufPoolBufsize 0))
      [.alloc .transport 600, .alloc .raw 10, .take 3 [1, 2, 3] 3, .cat 3 1, .removeHeader 3 14,
        .addHeader 3 20, .copyPartial 3 [9, 9, 9, 9] 3 5, .freeHeader 3 600, .realloc 2 8,
        .dechain 2, .removeHeader 2 0x10000, .alloc .ip 2000, .free 2]).map Prod.snd =
      some [.pbuf (some 3), .pbuf (some 1), .err errOk, .void, .count 0, .count 0,
        .bytes [0, 1, 2, 9] 3, .pbuf (some 2), .void, .pbuf none, .count 1, .pbuf none,
        .count 1] := by
    decide +kernel
  rw [hrun, Option.map_some, Option.some.injEq] at hreplies
  change rs = _ at hreplies
  subst hreplies
  exact ⟨s, hrun, hspec⟩

end PbufClients

end EthoSlip
