import EthoSlip.Proofs.BufferBounds
import EthoSlip.Proofs.PbufAlloc

/-!
# What a chain contains

A chain is a string of bytes in pieces, which are the payloads of its elements. `pbuf_take` writes
across the pieces, and `pbuf_copy_partial` reads them.
-/

namespace EthoSlip
open Lib

namespace PbufPool

variable {n : ℕ} {m m' : PbufPool n} {held held' : Multiset (Fin n)} {a p q t : Fin n}
  {l : List (Fin n)} {c c' : PbufCell n}

/-- Bytes are written to the front of a window of the memory. -/
lemma take_drop_memcpy (bytes src : List Byte) (i len k : ℕ) (hlen : i + len ≤ bytes.length)
    (hk : k ≤ len) (hsrc : k ≤ src.length) :
    ((bytes.take i ++ src.take k ++ bytes.drop (i + k)).drop i).take len =
      src.take k ++ ((bytes.drop i).take len).drop k := by
  have htake : (bytes.take i).length = i := List.length_take_of_le (by omega)
  have hsrcTake : (src.take k).length = k := List.length_take_of_le hsrc
  rw [List.append_assoc, List.drop_append, htake, Nat.sub_self, List.drop_zero,
    List.drop_of_length_le htake.le, List.nil_append, List.take_append, hsrcTake,
    List.take_of_length_le (by rw [hsrcTake]; exact hk), List.drop_take, List.drop_drop]

lemma memcpy_eq (m : PbufPool n) (p : Fin n) (i : ℕ) (src : Buf) (k : ℕ)
    (hroom : i + k ≤ pbufPoolBufsize) (hsrc : k ≤ src.length) :
    ∃ m', m.memcpy p i src k = some m' ∧ m'.cell = m.cell ∧ m'.tab = m.tab ∧
      (∀ a ≠ p, m'.memory a = m.memory a) ∧
      (m'.memory p).toList = (m.memory p).toList.take i ++ src.take k ++
        (m.memory p).toList.drop (i + k) := by
  have hcopy : Buf.memcpy (m.memory p).toList i src k =
      some ((m.memory p).toList.take i ++ src.take k ++ (m.memory p).toList.drop (i + k)) := by
    rw [Buf.memcpy, if_pos ⟨by rw [Vector.length_toList]; exact hroom, hsrc⟩]
  unfold memcpy
  split
  · rename_i hnone
    rw [hcopy] at hnone
    cases hnone
  · rename_i bytes hsome
    rw [hcopy, Option.some.injEq] at hsome
    refine ⟨_, rfl, rfl, rfl, ?_, ?_⟩
    · intro a ha
      exact Function.update_of_ne ha _ _
    · simp only [Function.update_self]
      exact hsome.symm

lemma lenOf_cell (h : m'.cell = m.cell) (a : Fin n) : m'.lenOf a = m.lenOf a := by
  rw [lenOf, lenOf, h]

/-- What is copied to the payload of an element is written to the piece. -/
lemma piece_write {src : List Byte} {total : ℕ} (hc : m.cell a = some c) (hc' : m'.cell a = some c)
    (hwindow : c.payload + c.len.toNat ≤ pbufPoolBufsize) (hsrc : total ≤ src.length)
    (hbytes : (m'.memory a).toList = (m.memory a).toList.take c.payload ++
      src.take (min total c.len.toNat) ++
        (m.memory a).toList.drop (c.payload + min total c.len.toNat)) :
    m'.piece a = (m.piece a).write (src.take total) := by
  have hlength : (m.segment a).length = c.len.toNat := by
    rw [segment_eq hc, List.length_take, List.length_drop, Vector.length_toList]
    omega
  have hheadroom : m'.headroom a = m.headroom a := by
    have htake : ((m.memory a).toList.take c.payload).length = c.payload := by
      rw [List.length_take, Vector.length_toList]
      omega
    rw [headroom_eq hc, headroom_eq hc', hbytes, List.append_assoc, List.take_left' htake]
  have hsegment : m'.segment a = src.take (min total c.len.toNat) ++
      (m.segment a).drop (min total c.len.toNat) := by
    rw [segment_eq hc', hbytes, segment_eq hc]
    apply take_drop_memcpy
    · rw [Vector.length_toList]
      exact hwindow
    · exact min_le_right _ _
    · exact (min_le_left _ _).trans hsrc
  have hdrop : (m.segment a).drop (min total c.len.toNat) = (m.segment a).drop total := by
    rcases Nat.le_total c.len.toNat total with hfull | hall
    · rw [min_eq_right hfull, ← hlength, List.drop_of_length_le (Nat.le_refl _),
        List.drop_of_length_le (by rw [hlength]; exact hfull)]
    · rw [min_eq_left hall]
  rw [piece, piece, PacketPiece.write, hheadroom, hsegment, hdrop, List.length_take_of_le hsrc,
    hlength, List.take_take, min_comm]

/-- The copying loop of `pbuf_take`, at any place of the data. -/
lemma pbufTakeLoop_eq (dataptr : Buf) (total copied : ℕ) {p : Option (Fin n)}
    (hl : Linked m.nextOf p l) (hlive : ∀ a ∈ l, ∃ c, m.cell a = some c)
    (hwindow : ∀ a c, m.cell a = some c → c.payload + c.len.toNat ≤ pbufPoolBufsize)
    (htotal : total ≤ m.size l) (hdata : copied + total ≤ dataptr.length)
    {fuel : ℕ} (hfuel : l.length ≤ fuel) :
    ∃ m', pbufTakeLoop dataptr fuel m p total copied = some m' ∧ m'.cell = m.cell ∧
      m'.tab = m.tab ∧ (∀ a ∉ l, m'.memory a = m.memory a) ∧
      l.map m'.piece = writePieces ((dataptr.drop copied).take total) (l.map m.piece) := by
  induction l generalizing m p total copied fuel with
  | nil =>
    obtain rfl : total = 0 := Nat.le_zero.mp htotal
    refine ⟨m, ?_, rfl, rfl, fun _ _ => rfl, rfl⟩
    unfold pbufTakeLoop
    rfl
  | cons a l ih =>
    obtain ⟨fuel, rfl⟩ : ∃ k, fuel = k + 1 := Nat.exists_eq_succ_of_ne_zero (by
      rw [List.length_cons] at hfuel
      omega)
    cases total with
    | zero =>
      refine ⟨m, ?_, rfl, rfl, fun _ _ => rfl, ?_⟩
      · unfold pbufTakeLoop
        rfl
      · rw [List.take_zero, writePieces_nil]
    | succ total =>
      obtain ⟨c, hc⟩ := hlive a (List.mem_cons_self ..)
      have hnotMem : a ∉ l := (List.nodup_cons.mp hl.nodup).1
      cases hl with
      | cons htail =>
        have hca := hwindow a c hc
        rw [size_cons, lenOf_eq hc] at htotal
        set k := min (total + 1) c.len.toNat with hk
        have hsrc : k ≤ (dataptr.drop copied).length := by
          rw [List.length_drop]
          omega
        obtain ⟨m₁, hcopy, hcell, htab, hother, hbytes⟩ :=
          m.memcpy_eq a c.payload (dataptr.drop copied) k (by omega) hsrc
        have hnextOf : m₁.nextOf = m.nextOf := by
          funext b
          rw [nextOf, hcell, nextOf]
        have hlens : ∀ b ∈ l, m₁.lenOf b = m.lenOf b := fun b _ => lenOf_cell hcell b
        obtain ⟨m', hloop, hcell', htab', houtside, hpieces⟩ := ih (m := m₁) (p := c.next)
          (total + 1 - k) (copied + k)
          (by rw [hnextOf, ← nextOf_eq hc]; exact htail)
          (fun b hb => by rw [hcell]; exact hlive b (List.mem_cons_of_mem a hb))
          (fun b d hb => hwindow b d (by rw [← hcell]; exact hb))
          (by rw [size_congr hlens]; omega) (by omega) (Nat.le_of_succ_le_succ hfuel)
        have hc' : m'.cell a = some c := by rw [hcell', hcell, hc]
        have hlength : (m.segment a).length = c.len.toNat := by
          rw [segment_eq hc, List.length_take, List.length_drop, Vector.length_toList]
          omega
        have hrest : l.map m₁.piece = l.map m.piece := by
          apply List.map_congr_left
          intro b hb
          obtain ⟨d, hd⟩ := hlive b (List.mem_cons_of_mem a hb)
          apply piece_congr hd (by rw [hcell]; exact hd) rfl rfl
          apply hother
          rintro rfl
          exact hnotMem hb
        have hfirst : m'.piece a = (m.piece a).write ((dataptr.drop copied).take (total + 1)) := by
          apply piece_write hc hc' hca
          · rw [List.length_drop]
            omega
          · rw [houtside a hnotMem, hbytes, hk]
        refine ⟨m', ?_, hcell'.trans hcell, htab'.trans htab, ?_, ?_⟩
        · rw [pbufTakeLoop, hc]
          simp only [Option.bind_eq_bind, Option.bind_some, ← hk, hcopy, hloop]
        · intro b hb
          rw [List.mem_cons, not_or] at hb
          rw [houtside b hb.2, hother b hb.1]
        · have hbehind : (dataptr.drop (copied + k)).take (total + 1 - k) =
              ((dataptr.drop copied).take (total + 1)).drop (m.piece a).bytes.length := by
            change _ = List.drop (m.segment a).length _
            rw [hlength, List.drop_take, List.drop_drop]
            -- either the element is full, or all is copied
            rcases Nat.le_total c.len.toNat (total + 1) with hfull | hall
            · rw [hk, min_eq_right hfull]
            · rw [hk, min_eq_left hall, Nat.sub_self, Nat.sub_eq_zero_of_le hall, List.take_zero,
                List.take_zero]
          rw [List.map_cons, List.map_cons, writePieces, ← hfirst, ← hbehind, ← hrest, hpieces]

namespace Sound

/-- Only the memory changes. -/
lemma withMemory (h : m.Sound held) (hcell : m'.cell = m.cell) (htab : m'.tab = m.tab) :
    m'.Sound held := by
  obtain ⟨cell, memory, tab, pending⟩ := m'
  simp only at hcell htab
  subst hcell
  subst htab
  exact ⟨⟨h.tab_nodup, h.mem_tab, h.live, h.threaded, h.counted⟩, h.totals, h.window⟩

/-- `pbuf_take` writes the data to the front of a chain that has room for it. -/
theorem take (h : m.Sound held) (hp : m.cell p = some c) (hl : Linked m.nextOf (some p) l)
    {dataptr : Buf} {len : UInt16} (hroom : len ≤ c.totLen) (hdata : len.toNat ≤ dataptr.length) :
    ∃ m', m.pbufTake p dataptr len = some (m', errOk) ∧ m'.Sound held ∧ m'.cell = m.cell ∧
      (∀ a ∉ l, m'.memory a = m.memory a) ∧
      l.map m'.piece = writePieces (dataptr.take len.toNat) (l.map m.piece) := by
  have hlive : ∀ a ∈ l, ∃ c, m.cell a = some c := fun a ha => h.toOwned.thread_live hl hp ha
  have hsize : len.toNat ≤ m.size l :=
    (UInt16.le_iff_toNat_le.mp hroom).trans (h.totLen_le_size hp hl)
  obtain ⟨m', hloop, hcell, htab, houtside, hpieces⟩ :=
    pbufTakeLoop_eq dataptr len.toNat 0 hl hlive h.window hsize
      (by rw [Nat.zero_add]; exact hdata) (Owned.thread_length_le hl)
  refine ⟨m', ?_, h.withMemory hcell htab, hcell, houtside, hpieces⟩
  rw [pbufTake, hp, Option.bind_eq_bind, Option.bind_some, if_neg (UInt16.not_lt.mpr hroom), hloop]
  rfl

end Sound

lemma Sound.toPbuf_eq (h : m.Sound held) (ha : m.cell a = some c) :
    ∃ buf, m.toPbuf a = some buf ∧ buf.totLen = c.totLen ∧ buf.payload = m.segment a := by
  rw [toPbuf, ha, Option.bind_eq_bind, Option.bind_some, dif_pos (h.window a c ha)]
  exact ⟨_, rfl, rfl, (segment_eq ha).symm⟩

/-- A function that walks along a chain reads its contents. -/
theorem Sound.toChain_eq (h : m.Sound held) {p : Option (Fin n)} (hl : Linked m.nextOf p l)
    (hlive : ∀ a ∈ l, ∃ c, m.cell a = some c) {fuel : ℕ} (hfuel : l.length ≤ fuel) :
    ∃ chain, m.toChain fuel p = some chain ∧ chainBytes chain = m.contents l ∧
      chain.head?.map Pbuf.totLen = p.map (fun a => m.totOf (some a)) := by
  induction hl generalizing fuel with
  | nil =>
    refine ⟨[], ?_, rfl, rfl⟩
    unfold toChain
    rfl
  | @cons a l hl ih =>
    obtain ⟨fuel, rfl⟩ : ∃ k, fuel = k + 1 := Nat.exists_eq_succ_of_ne_zero (by
      rw [List.length_cons] at hfuel
      omega)
    obtain ⟨c, hc⟩ := hlive a (List.mem_cons_self ..)
    obtain ⟨buf, hbuf, htotLen, hpayload⟩ := h.toPbuf_eq hc
    obtain ⟨chain, hchain, hbytes, -⟩ := ih (fun b hb => hlive b (List.mem_cons_of_mem a hb))
      (Nat.le_of_succ_le_succ hfuel)
    rw [nextOf_eq hc] at hchain
    refine ⟨buf :: chain, ?_, ?_, ?_⟩
    · simp only [toChain, hc, hbuf, hchain, Option.bind_eq_bind, Option.bind_some, Option.pure_def]
    · rw [chainBytes_cons, hpayload, hbytes, contents_cons]
    · rw [List.head?_cons, Option.map_some, Option.map_some, htotLen, totOf_some hc]

end PbufPool

/-- `pbuf_copy_partial` from any place of a chain appends the bytes from there, as many as are asked
for and there are. -/
lemma copyPartialLoop_from (chain : List Pbuf) (p : Buf) (xs : List Byte)
    (len offset left copied : UInt16) (hleft : left.toNat = xs.length)
    (hcopied : copied.toNat = xs.length) (hroom : xs.length + len.toNat ≤ p.length)
    (hsize : xs.length + len.toNat < 2 ^ 16) :
    ∃ r, copyPartialLoop chain (p.overlay xs) len offset left copied =
        some (p.overlay (xs ++ ((chainBytes chain).drop offset.toNat).take len.toNat), r) ∧
      r.toNat = (xs ++ ((chainBytes chain).drop offset.toNat).take len.toNat).length := by
  induction chain generalizing xs len offset left copied with
  | nil => exact ⟨copied, by simp [copyPartialLoop], by simpa using hcopied⟩
  | cons seg next ih =>
    by_cases hzero : len = 0
    · subst hzero
      exact ⟨copied, by simp [copyPartialLoop], by simpa using hcopied⟩
    · rw [copyPartialLoop, if_neg hzero, chainBytes_cons]
      by_cases hskip : offset ≠ 0 ∧ seg.len ≤ offset
      · have hsub : (offset - seg.len).toNat = offset.toNat - seg.payload.length := by
          rw [UInt16.toNat_sub_of_le _ _ hskip.2, seg.length_payload]
        have hle := UInt16.le_iff_toNat_le.mp hskip.2
        rw [if_pos hskip, List.drop_append, List.drop_of_length_le (by rw [seg.length_payload]; exact hle),
          List.nil_append, ← hsub]
        exact ih xs len (offset - seg.len) left copied hleft hcopied hroom hsize
      · have hle : offset ≤ seg.len := by
          rw [not_and_or, not_not] at hskip
          rcases hskip with hoffset | hless
          · rw [hoffset]
            exact UInt16.le_iff_toNat_le.mpr (Nat.zero_le _)
          · exact UInt16.le_of_lt (UInt16.not_le.mp hless)
        have hle' := UInt16.le_iff_toNat_le.mp hle
        have havail : (seg.len - offset).toNat = (seg.payload.drop offset.toNat).length := by
          rw [UInt16.toNat_sub_of_le _ _ hle, List.length_drop, seg.length_payload]
        set ys := seg.payload.drop offset.toNat with hys
        set n : UInt16 := if len < seg.len - offset then len else seg.len - offset with hn
        have hmin : n.toNat = min len.toNat ys.length := by
          rw [hn, ← havail]
          split_ifs with hless
          · rw [min_eq_left (UInt16.lt_iff_toNat_lt.mp hless).le]
          · rw [min_eq_right (UInt16.le_iff_toNat_le.mp (UInt16.not_lt.mp hless))]
        have hnlen : n.toNat ≤ len.toNat := by
          rw [hmin]
          exact min_le_left _ _
        have hrest : (len - n).toNat = len.toNat - n.toNat :=
          UInt16.toNat_sub_of_le _ _ (UInt16.le_iff_toNat_le.mpr hnlen)
        have hlen : (ys.take n.toNat).length = n.toNat := by
          rw [List.length_take, hmin]
          omega
        have hgrow : ∀ k : UInt16, k.toNat = xs.length →
            (k + n).toNat = (xs ++ ys.take n.toNat).length := by
          intro k hk
          rw [UInt16.toNat_add, hk, List.length_append, hlen, Nat.mod_eq_of_lt (by omega)]
        obtain ⟨r, hloop, hr⟩ := ih (xs ++ ys.take n.toNat) (len - n) 0 (left + n) (copied + n)
          (hgrow left hleft) (hgrow copied hcopied) (by rw [List.length_append, hlen]; omega)
          (by rw [List.length_append, hlen]; omega)
        have hbytes : (xs ++ ys.take n.toNat) ++
              ((chainBytes next).drop (0 : UInt16).toNat).take (len - n).toNat =
            xs ++ ((seg.payload ++ chainBytes next).drop offset.toNat).take len.toNat := by
          have hends : len.toNat - n.toNat = len.toNat - ys.length := by omega
          rw [UInt16.toNat_zero, List.drop_zero, hrest, hends, List.append_assoc,
            List.drop_append_of_le_length (by rw [seg.length_payload]; exact hle'), List.take_append,
            ← hys, hmin, ← List.take_eq_take_min]
        rw [hbytes] at hloop hr
        have hmemcpy := p.memcpy_overlay xs ys (n := n.toNat) (by omega) (by omega)
        refine ⟨r, ?_, hr⟩
        rw [if_neg hskip]
        simp only [hleft, hmemcpy, Option.bind_eq_bind, Option.bind_some, hloop]

lemma pbufCopyPartial_from (chain : List Pbuf) {p : Buf} {len : UInt16} (offset : UInt16)
    (hroom : len.toNat ≤ p.length) :
    ∃ r, pbufCopyPartial chain p len offset =
        some (p.overlay (((chainBytes chain).drop offset.toNat).take len.toNat), r) ∧
      r.toNat = (((chainBytes chain).drop offset.toNat).take len.toNat).length := by
  obtain ⟨r, hcopy, hr⟩ := copyPartialLoop_from chain p [] len offset 0 0 rfl rfl
    (by rw [List.length_nil, Nat.zero_add]; exact hroom)
    (by rw [List.length_nil, Nat.zero_add]; exact len.toNat_lt)
  rw [Buf.overlay_nil, List.nil_append] at hcopy
  rw [List.nil_append] at hr
  exact ⟨r, hcopy, hr⟩

end EthoSlip
