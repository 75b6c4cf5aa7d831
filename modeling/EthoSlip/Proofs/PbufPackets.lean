import EthoSlip.Model.PacketStore
import EthoSlip.Proofs.PbufRun

/-!
# The packets of exclusive owners

Where every reference that is held is the only one to its `pbuf`, the chain that it leads to is a
packet. A call that works on one chain leaves the other packets as they are, and what `pbuf.c` asks
of its callers is what the store asks.
-/

namespace EthoSlip
open Lib

lemma StoredPacket.ext_pieces {k k' : StoredPacket} (h : k.pieces = k'.pieces) : k = k' := by
  cases k
  cases k'
  rw [pieces, pieces, List.cons.injEq] at h
  rw [StoredPacket.mk.injEq]
  exact h

namespace PbufPool

variable {n : ℕ} {m m' : PbufPool n} {held held' : Multiset (Fin n)} {a b p q r : Fin n}
  {l : List (Fin n)} {c c' : PbufCell n}

/-- The elements of a chain are the pieces of a packet. -/
def packetAt (m : PbufPool n) (p : Fin n) : StoredPacket :=
  ⟨m.piece p, (m.chainAt p).tail.map m.piece⟩

lemma packetAt_eq (hl : Linked m.nextOf (some p) (p :: l)) :
    m.packetAt p = ⟨m.piece p, l.map m.piece⟩ := by
  rw [packetAt, chainAt_eq hl, List.tail_cons]

lemma pieces_packetAt (hl : Linked m.nextOf (some p) l) :
    (m.packetAt p).pieces = l.map m.piece := by
  obtain ⟨l, rfl, -⟩ := hl.eq_cons
  rw [packetAt_eq hl, StoredPacket.pieces, List.map_cons]

lemma bytes_packetAt (hl : Linked m.nextOf (some p) l) : (m.packetAt p).bytes = m.contents l := by
  rw [StoredPacket.bytes, pieces_packetAt hl, bytesOf_map_piece]

/-- A packet is what its elements and their memory make it. -/
lemma packetAt_congr (hl : Linked m.nextOf (some r) l) (hcell : ∀ a ∈ l, m'.cell a = m.cell a)
    (hmemory : ∀ a ∈ l, m'.memory a = m.memory a) : m'.packetAt r = m.packetAt r := by
  have hl' : Linked m'.nextOf (some r) l := by
    apply hl.congr
    intro a ha
    rw [nextOf, hcell a ha, nextOf]
  apply StoredPacket.ext_pieces
  rw [pieces_packetAt hl, pieces_packetAt hl', map_piece_congr hcell hmemory]

/-- What `pbuf_alloc` returns is a fresh packet. -/
lemma Allocated.fresh {layer : PbufLayer} {length : UInt16}
    (h : Allocated m m' held layer length p l) : (m'.packetAt p).Fresh layer length.toNat := by
  have hlinked := h.thread
  obtain ⟨l, rfl, -⟩ := hlinked.eq_cons
  have hnotMem : p ∉ l := (List.nodup_cons.mp hlinked.nodup).1
  obtain ⟨c, hc, -, hpayload⟩ := h.first
  rw [packetAt_eq hlinked]
  constructor
  · change (m'.headroom p).length = _
    rw [headroom_eq hc, hpayload, List.length_take, Vector.length_toList]
    exact min_eq_left (layer.offset_le.trans (by decide))
  · intro s hs
    obtain ⟨a, ha, rfl⟩ := List.mem_map.mp hs
    have hap : a ≠ p := by
      rintro rfl
      exact hnotMem ha
    obtain ⟨d, hd, hzero⟩ := h.places a (List.mem_cons_of_mem p ha) hap
    change m'.headroom a = []
    rw [headroom_eq hd, hzero, List.take_zero]
  · have hlengths : (p :: l).map m'.lenOf = (p :: l).map (fun a => (m'.piece a).bytes.length) :=
      List.map_congr_left (fun a _ => (h.sound.length_segment a).symm)
    change ((p :: l).map m'.piece).map (fun s => s.bytes.length) = _
    rw [← h.lengths, hlengths, List.map_map]
    rfl

lemma Recounted.links (h : Recounted m m' l) (hb : m'.nextOf a = some b) : m.nextOf a = some b := by
  cases ha : m'.cell a with
  | none =>
    rw [nextOf_free ha] at hb
    cases hb
  | some c' =>
    obtain ⟨c, hc, hc'⟩ := h.cell a c' ha
    rw [nextOf_eq ha, hc'] at hb
    rw [nextOf_eq hc]
    exact hb

lemma links_update_none {next : Fin n → Option (Fin n)}
    (h : Function.update next p none a = some b) : next a = some b := by
  by_cases hap : a = p
  · rw [hap, Function.update_self] at h
    cases h
  · rw [Function.update_of_ne hap] at h
    exact h

end PbufPool

namespace PbufClients

variable {n : ℕ} {s s' : PbufClients n} {p q t : Fin n} {m' : PbufPool n} {r : PbufReply n}

/-- The packets that the clients own. -/
def packets (s : PbufClients n) : PacketStore n := fun p =>
  if p ∈ s.held then some (s.pool.packetAt p) else none

lemma packets_eq (hp : p ∈ s.held) : s.packets p = some (s.pool.packetAt p) := if_pos hp

lemma packets_eq_none (hp : p ∉ s.held) : s.packets p = none := if_neg hp

lemma packets_isSome : (s.packets p).isSome ↔ p ∈ s.held := by
  unfold packets
  split_ifs with hp <;> simp [hp]

/-- A call that concerns one packet leaves the others as they are. -/
lemma packets_update {held' : Multiset (Fin n)} {k : Option StoredPacket}
    (hp : packets ⟨m', held'⟩ p = k) (hheld : ∀ q ≠ p, q ∈ held' ↔ q ∈ s.held)
    (hsame : ∀ q ∈ s.held, q ≠ p → m'.packetAt q = s.pool.packetAt q) :
    packets ⟨m', held'⟩ = Function.update s.packets p k := by
  funext q
  by_cases hqp : q = p
  · rw [hqp, Function.update_self, hp]
  · rw [Function.update_of_ne hqp]
    by_cases hq : q ∈ s.held
    · rw [packets_eq hq, ← hsame q hq hqp]
      exact packets_eq ((hheld q hqp).mpr hq)
    · rw [packets_eq_none hq]
      exact packets_eq_none (fun hmem => hq ((hheld q hqp).mp hmem))

/-- Every reference that is held is the only one to its `pbuf`. -/
structure Exclusive (s : PbufClients n) : Prop extends Accounted s where
  nodup : s.held.Nodup
  heads : ∀ p ∈ s.held, IsHead s.pool.nextOf p

namespace Exclusive

lemma init (memory : Fin n → Vector Byte pbufPoolBufsize) : (init memory).Exclusive where
  toAccounted := Accounted.init memory
  nodup := Multiset.nodup_zero
  heads p hp := by simp [PbufClients.init] at hp

lemma exists_cell (h : Exclusive s) (hp : p ∈ s.held) : ∃ c, s.pool.cell p = some c :=
  h.sound.toOwned.exists_cell hp

lemma head (h : Exclusive s) (hp : p ∈ s.held) : Head s.pool p := by
  obtain ⟨c, hc⟩ := h.exists_cell hp
  exact ⟨by rw [hc]; rfl, h.heads p hp⟩

lemma linked (h : Exclusive s) (p : Fin n) : Linked s.pool.nextOf (some p) (s.pool.chainAt p) :=
  h.sound.toOwned.chainAt p

lemma live (h : Exclusive s) (hp : p ∈ s.held) : ∀ a ∈ s.pool.chainAt p, ∃ c, s.pool.cell a = some c := by
  obtain ⟨c, hc⟩ := h.exists_cell hp
  exact fun a ha => h.sound.toOwned.thread_live (h.linked p) hc ha

lemma disjoint (h : Exclusive s) (hp : p ∈ s.held) (hq : q ∈ s.held) (hpq : p ≠ q) :
    (s.pool.chainAt p).Disjoint (s.pool.chainAt q) :=
  h.sound.threaded.disjoint (h.heads p hp) (h.heads q hq) hpq (h.linked p) (h.linked q)

lemma ref_le_one (h : Exclusive s) (a : Fin n) : s.pool.refOf a ≤ 1 := by
  rw [h.sound.counted a]
  by_cases ha : a ∈ s.held
  · have hzero : indegree s.pool.nextOf a = 0 := by
      apply Nat.eq_zero_of_not_pos
      intro hpos
      obtain ⟨b, hb⟩ := exists_of_indegree_pos hpos
      exact h.heads a ha b hb
    have hcount := Multiset.nodup_iff_count_le_one.mp h.nodup a
    omega
  · rw [Multiset.count_eq_zero.mpr ha, Nat.zero_add]
    exact h.sound.threaded.indegree_le_one a

lemma ref_eq_one (h : Exclusive s) (hp : p ∈ s.held) :
    ∀ a ∈ s.pool.chainAt p, s.pool.refOf a = 1 := by
  intro a ha
  have hpos := h.sound.counted.live_of_mem hp (h.linked p) ha
  have hle := h.ref_le_one a
  omega

/-- Packets are as they were where neither their elements nor the memory of these change. -/
lemma packetAt_frame (h : Exclusive s) (hp : p ∈ s.held) (hq : q ∈ s.held) (hpq : q ≠ p)
    (hcell : ∀ a ∉ s.pool.chainAt p, m'.cell a = s.pool.cell a)
    (hmemory : ∀ a ∉ s.pool.chainAt p, m'.memory a = s.pool.memory a) :
    m'.packetAt q = s.pool.packetAt q := by
  have hdisjoint := h.disjoint hq hp hpq
  apply PbufPool.packetAt_congr (h.linked q)
  · exact fun a ha => hcell a (hdisjoint ha)
  · exact fun a ha => hmemory a (hdisjoint ha)

lemma packets_erase (h : Exclusive s) :
    packets ⟨s.pool, s.held.erase p⟩ = Function.update s.packets p none :=
  packets_update (packets_eq_none h.nodup.notMem_erase) (fun _ hqp => Multiset.mem_erase_of_ne hqp)
    (fun _ _ _ => rfl)

/-- A call that works on one chain, and makes no new link. -/
lemma single (h : Exclusive s) (hp : p ∈ s.held) (hs' : Accounted ⟨m', s.held⟩)
    (hlinks : ∀ a b, m'.nextOf a = some b → s.pool.nextOf a = some b)
    (hcell : ∀ a ∉ s.pool.chainAt p, m'.cell a = s.pool.cell a)
    (hmemory : ∀ a ∉ s.pool.chainAt p, m'.memory a = s.pool.memory a) :
    Exclusive ⟨m', s.held⟩ ∧
      packets ⟨m', s.held⟩ = Function.update s.packets p (some (m'.packetAt p)) := by
  constructor
  · exact ⟨hs', h.nodup, fun r hr b hb => h.heads r hr b (hlinks b r hb)⟩
  · apply packets_update
    · exact packets_eq hp
    · exact fun _ _ => Iff.rfl
    · exact fun r hr hrp => h.packetAt_frame hp hr hrp hcell hmemory

/-- Only the first element is changed, and not its link. -/
lemma setFirst (h : Exclusive s) (hp : p ∈ s.held) {l : List (Fin n)}
    (hl : s.pool.chainAt p = p :: l) {c' : PbufCell n}
    (hnextOf : (s.pool.set p c').nextOf = s.pool.nextOf)
    (hs' : Accounted ⟨s.pool.set p c', s.held⟩) :
    Exclusive ⟨s.pool.set p c', s.held⟩ ∧ packets ⟨s.pool.set p c', s.held⟩ =
      Function.update s.packets p (some ⟨(s.pool.set p c').piece p, l.map s.pool.piece⟩) := by
  have hlinked : Linked s.pool.nextOf (some p) (p :: l) := hl ▸ h.linked p
  have hother : ∀ a ≠ p, (s.pool.set p c').cell a = s.pool.cell a := fun a ha =>
    PbufPool.cell_set_of_ne ha _
  have hrest : l.map (s.pool.set p c').piece = l.map s.pool.piece := by
    apply PbufPool.map_piece_congr
    · intro a ha
      apply hother
      rintro rfl
      exact (List.nodup_cons.mp hlinked.nodup).1 ha
    · exact fun _ _ => rfl
  rw [← hrest, ← PbufPool.packetAt_eq (hnextOf ▸ hlinked)]
  apply h.single hp hs'
  · intro a b hb
    rw [← hnextOf]
    exact hb
  · intro a ha
    apply hother
    rintro rfl
    rw [hl] at ha
    exact ha (List.mem_cons_self ..)
  · exact fun _ _ => rfl

end Exclusive

/-- The free elements are those that the packets do not take. -/
lemma Exclusive.tab_add_used (h : Exclusive s) : s.pool.tab.length + s.packets.used = n := by
  have hused : s.packets.used = ∑ p ∈ s.held.toFinset, (s.pool.chainAt p).toFinset.card := by
    have hzero : ∀ p ∉ s.held.toFinset,
        ((s.packets p).map (fun k => k.pieces.length)).getD 0 = 0 := by
      intro p hp
      rw [Multiset.mem_toFinset] at hp
      rw [packets, if_neg hp]
      rfl
    rw [PacketStore.used, ← Finset.sum_subset (Finset.subset_univ _) (fun p _ hp => hzero p hp)]
    apply Finset.sum_congr rfl
    intro p hp
    rw [packets_eq (Multiset.mem_toFinset.mp hp), Option.map_some, Option.getD_some,
      PbufPool.pieces_packetAt (h.linked p), List.length_map,
      List.toFinset_card_of_nodup (h.linked p).nodup]
  have hdisjoint : (s.held.toFinset : Set (Fin n)).PairwiseDisjoint
      (fun p => (s.pool.chainAt p).toFinset) := by
    intro p hp q hq hpq
    rw [Finset.mem_coe, Multiset.mem_toFinset] at hp hq
    rw [Function.onFun, List.disjoint_toFinset_iff_disjoint]
    exact h.disjoint hp hq hpq
  have hfree : s.pool.tab.toFinset =
      (s.held.toFinset.biUnion (fun p => (s.pool.chainAt p).toFinset))ᶜ := by
    ext a
    rw [List.mem_toFinset, h.mem_tab, Finset.mem_compl, Finset.mem_biUnion]
    simp
  rw [hused, ← Finset.card_biUnion hdisjoint, ← List.toFinset_card_of_nodup h.sound.tab_nodup,
    hfree, Finset.card_compl_add_card, Fintype.card_fin]

lemma accounted_of_call (h : Accounted s) {op : PbufOp n} (hcall : s.call op = some (s', r))
    (hG : Allowed s op) : Accounted s' := by
  obtain ⟨s₁, r₁, hcall₁, hs₁⟩ := call_accounted h hG
  rw [hcall, Option.some.injEq, Prod.mk.injEq] at hcall₁
  rw [hcall₁.1]
  exact hs₁

lemma Exclusive.lengthAt (h : Exclusive s) (hp : p ∈ s.held) :
    s.packets.lengthAt p = (s.pool.totOf (some p)).toNat := by
  rw [PacketStore.lengthAt, packets_eq hp, Option.map_some, Option.getD_some,
    PbufPool.bytes_packetAt (h.linked p), h.sound.length_contents,
    h.sound.toNat_totOf h.unwrapped (h.linked p)]

/-- What is asked of the packets is all that `pbuf.c` asks. -/
lemma Exclusive.allowed (h : Exclusive s) {op : PbufOp n} (hop : s.packets.Admits op) :
    Allowed s op := by
  have hlive (p : Fin n) (hp : (s.packets p).isSome) : (s.pool.cell p).isSome :=
    (h.head (packets_isSome.mp hp)).1
  cases op with
  | alloc layer length => trivial
  | ref p => exact hop.elim
  | free p => exact packets_isSome.mp hop
  | cat p t =>
    obtain ⟨hp, ht, hpt, hroom⟩ := hop
    have hp := packets_isSome.mp hp
    have ht := packets_isSome.mp ht
    rw [h.lengthAt hp, h.lengthAt ht] at hroom
    exact ⟨h.head hp, h.head ht, hpt, hroom⟩
  | chain p t => exact hop.elim
  | dechain p => exact h.head (packets_isSome.mp hop)
  | realloc p newLen => exact h.head (packets_isSome.mp hop)
  | removeHeader p decrement =>
    have hp := packets_isSome.mp hop.1
    have hlength : s.packets.firstLengthAt p = s.pool.lenOf p := by
      rw [PacketStore.firstLengthAt, packets_eq hp, Option.map_some, Option.getD_some]
      exact h.sound.length_segment p
    have hroom := hop.2
    rw [hlength] at hroom
    exact ⟨h.head hp, hroom⟩
  | addHeader p increment => exact h.head (packets_isSome.mp hop)
  | freeHeader p size =>
    have hp := packets_isSome.mp hop
    exact ⟨hp, h.ref_eq_one hp⟩
  | take p dataptr len =>
    have hroom := hop.2.1
    rw [h.lengthAt (packets_isSome.mp hop.1)] at hroom
    exact ⟨hlive p hop.1, UInt16.le_iff_toNat_le.mpr hroom, hop.2.2⟩
  | copyPartial p dataptr len offset => exact ⟨hlive p hop.1, hop.2⟩

end PbufClients

end EthoSlip
