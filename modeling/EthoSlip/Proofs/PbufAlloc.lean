import EthoSlip.Proofs.PbufShrink

/-!
# Allocation from the pool

`pbuf_alloc` takes the first free elements, as many as the length needs, and chains them. When there
are too few it gives back those that it has taken, so that only the order of the free list changes,
and leaves word that the pool was empty.
-/

namespace EthoSlip
open Lib

lemma PbufLayer.offset_le (layer : PbufLayer) : layer.offset.toNat ≤ 74 := by
  cases layer <;> decide

lemma sum_fillLengths {room k length : ℕ} (h : length ≤ room + k * pbufPoolBufsize) :
    (fillLengths room (k + 1) length).sum = length := by
  induction k generalizing room length with
  | zero =>
    rw [fillLengths, fillLengths, List.sum_singleton]
    omega
  | succ k ih =>
    rw [Nat.succ_mul] at h
    rw [fillLengths, List.sum_cons, ih (by omega)]
    omega

/-- The elements that `pbuf_alloc` takes hold the length. -/
lemma sum_fillLengths_segments (layer : PbufLayer) (length : ℕ) :
    (fillLengths (pbufPoolBufsize - layer.offset.toNat) (layer.segments length) length).sum =
      length := by
  have hoffset := layer.offset_le
  obtain ⟨k, hk⟩ : ∃ k, layer.segments length = k + 1 :=
    Nat.exists_eq_succ_of_ne_zero (Nat.ne_of_gt (lt_of_lt_of_le Nat.one_pos (le_max_left _ _)))
  rw [hk]
  apply sum_fillLengths
  rw [PbufLayer.segments] at hk
  rw [pbufPoolBufsize] at hk ⊢
  omega

namespace PbufPool

variable {n : ℕ} {m₀ m m' : PbufPool n} {held : Multiset (Fin n)} {a p q last : Fin n}
  {l tab : List (Fin n)} {c : PbufCell n} {rem length : UInt16} {layer : PbufLayer}

lemma nextOf_withTab (m : PbufPool n) (tab : List (Fin n)) :
    ({ m with tab := tab } : PbufPool n).nextOf = m.nextOf := rfl

lemma cell_withTab (m : PbufPool n) (tab : List (Fin n)) :
    ({ m with tab := tab } : PbufPool n).cell = m.cell := rfl

/-- What `pbuf_alloc` leaves when it returns `NULL`. -/
def exhausted (m : PbufPool n) : PbufPool n :=
  { m with
    tab := m.tab.reverse
    pbufFreeOoseqPending := 1 }

/-- Neither the order of the free elements nor the flag matters. -/
lemma exhausted_sound (h : m.Sound held) : m.exhausted.Sound held where
  tab_nodup := List.nodup_reverse.mpr h.tab_nodup
  mem_tab a := List.mem_reverse.trans (h.mem_tab a)
  live := h.live
  threaded := h.threaded
  counted := h.counted
  totals := h.totals
  window := h.window

/-- An element is taken out of the free list. -/
lemma Owned.alloc (h : m.Owned held) (htab : m.tab = q :: tab) (hnext : c.next = none)
    (href : c.ref = 1) : (({ m with tab := tab } : PbufPool n).set q c).Owned (q ::ₘ held) := by
  have hfree : m.cell q = none := by
    rw [← h.mem_tab, htab]
    exact List.mem_cons_self ..
  have hnodup := h.tab_nodup
  rw [htab, List.nodup_cons] at hnodup
  have hnextOf : (({ m with tab := tab } : PbufPool n).set q c).nextOf = m.nextOf := by
    rw [nextOf_set, hnext, nextOf_withTab, ← nextOf_free hfree, Function.update_eq_self]
  constructor
  · exact hnodup.2
  · intro a
    change a ∈ tab ↔ _
    by_cases haq : a = q
    · rw [haq, cell_set]
      simp [hnodup.1]
    · rw [cell_set_of_ne haq, cell_withTab, ← h.mem_tab, htab, List.mem_cons]
      simp [haq]
  · intro a hzero
    by_cases haq : a = q
    · rw [haq, refOf_set, Function.update_self, href] at hzero
      cases hzero
    · rw [refOf_set, Function.update_of_ne haq] at hzero
      rw [cell_set_of_ne haq]
      exact h.live a hzero
  · rw [hnextOf]
    exact h.threaded
  · have hcount := h.counted.share q
    rw [refOf_free hfree] at hcount
    rw [hnextOf, refOf_set, href]
    exact hcount

/-- The last element of a chain is linked to a single one. -/
lemma Owned.append (h : m.Owned (q ::ₘ held)) (hq : m.refOf q = 1) (hlast : m.cell last = some c)
    (hnone : c.next = none) (hqnext : m.nextOf q = none) (hne : last ≠ q) :
    (m.set last { c with next := some q }).Owned held := by
  have hhead := (h.counted.sole hq).1
  have hsingle : Linked m.nextOf (some q) [q] := .cons (hqnext ▸ .nil)
  have hlastNext : m.nextOf last = none := (nextOf_eq hlast).trans hnone
  apply h.set hlast
  · change c.ref ≠ 0
    exact h.ref_ne_zero hlast
  · exact h.threaded.link hlastNext hhead hsingle (by simpa using hne)
  · rw [update_refOf hlast]
    exact h.counted.link hlastNext

/-- A chain that is being built, in which the `tot_len`s already count the `rem` bytes to come. -/
structure Building (m₀ m : PbufPool n) (held : Multiset (Fin n)) (p last : Fin n)
    (l : List (Fin n)) (rem : UInt16) : Prop where
  owned : m.Owned (p ::ₘ held)
  thread : Linked m.nextOf (some p) l
  last_mem : last ∈ l
  last_none : m.nextOf last = none
  sole : ∀ a ∈ l, m.refOf a = 1
  totals : ∀ a c, m.cell a = some c →
    c.totLen = c.len + if a = last then rem else m.totOf c.next
  window : ∀ a c, m.cell a = some c → c.payload + c.len.toNat ≤ pbufPoolBufsize
  outside : ∀ a ∉ l, m.cell a = m₀.cell a
  memory : m.memory = m₀.memory
  tab : m₀.tab = l ++ m.tab
  pending : m.pbufFreeOoseqPending = m₀.pbufFreeOoseqPending

namespace Building

lemma finish (h : Building m₀ m held p last l 0) : m.Sound (p ::ₘ held) where
  toOwned := h.owned
  totals a c ha := by
    have htotal := h.totals a c ha
    split_ifs at htotal with hal
    · have hnone := h.last_none
      rw [← hal, nextOf_eq ha] at hnone
      rw [hnone]
      exact htotal
    · exact htotal
  window := h.window

/-- Giving the chain back leaves the elements as they were. -/
lemma giveUp (hm₀ : m₀.Owned held) (h : Building m₀ m held p last l rem) (htab : m.tab = []) :
    ∃ count, m.pbufPoolIsEmpty.pbufFree p = some (m₀.exhausted, count) := by
  have hfree := pbufFreeLoop_sole (m := m.pbufPoolIsEmpty) h.thread h.sole
    (Owned.thread_length_le h.thread) 0
  have htab₀ := h.tab
  rw [htab, List.append_nil] at htab₀
  have hcell : (fun a => if a ∈ l then none else m.pbufPoolIsEmpty.cell a) = m₀.cell := by
    funext a
    by_cases ha : a ∈ l
    · rw [if_pos ha]
      rw [← htab₀, hm₀.mem_tab] at ha
      exact ha.symm
    · rw [if_neg ha]
      exact h.outside a ha
  have hresult : ({ m.pbufPoolIsEmpty with
      cell := m₀.cell
      tab := l.reverse ++ m.pbufPoolIsEmpty.tab } : PbufPool n) = m₀.exhausted := by
    change PbufPool.mk m₀.cell m.memory (l.reverse ++ m.tab) 1 = _
    rw [h.memory, htab, List.append_nil, ← htab₀]
    rfl
  rw [hcell, hresult] at hfree
  exact ⟨_, hfree⟩

/-- The next free element is filled and linked. -/
lemma next (h : Building m₀ m held p last l rem) (htab : m.tab = q :: tab) {qlen : UInt16}
    (hqlen : qlen.toNat ≤ pbufPoolBufsize) (hclast : m.cell last = some c) :
    Building m₀ ((({ m with tab := tab } : PbufPool n).set q ⟨none, 0, rem, qlen, 1⟩).set last
      { c with next := some q }) held p q (l ++ [q]) (rem - qlen) := by
  have hfree : m.cell q = none := by
    rw [← h.owned.mem_tab, htab]
    exact List.mem_cons_self ..
  have hlive : ∀ a ∈ l, m.cell a ≠ none := by
    intro a ha hnone
    have hone := h.sole a ha
    rw [refOf_free hnone] at hone
    cases hone
  have hql : q ∉ l := fun hmem => hlive q hmem hfree
  have hne : last ≠ q := by
    rintro rfl
    exact hql h.last_mem
  have hnone : c.next = none := by rw [← nextOf_eq hclast, h.last_none]
  set m₁ := ({ m with tab := tab } : PbufPool n).set q ⟨none, 0, rem, qlen, 1⟩ with hm₁
  have hlast₁ : m₁.cell last = some c := (cell_set_of_ne hne _).trans hclast
  have hq₁ : m₁.cell q = some ⟨none, 0, rem, qlen, 1⟩ := cell_set _ _ _
  have howned₁ : m₁.Owned (q ::ₘ p ::ₘ held) := h.owned.alloc htab rfl rfl
  have hnextOf₁ : m₁.nextOf = m.nextOf := by
    rw [hm₁, nextOf_set, nextOf_withTab]
    change Function.update m.nextOf q none = _
    rw [← nextOf_free hfree, Function.update_eq_self]
  have hcell (a : Fin n) (haq : a ≠ q) (hal : a ≠ last) :
      (m₁.set last { c with next := some q }).cell a = m.cell a := by
    rw [cell_set_of_ne hal, hm₁, cell_set_of_ne haq]
  have hcellq : (m₁.set last { c with next := some q }).cell q = some ⟨none, 0, rem, qlen, 1⟩ :=
    (cell_set_of_ne hne.symm _).trans hq₁
  have hsingle : Linked m₁.nextOf (some q) [q] := by
    apply Linked.cons
    rw [nextOf_eq hq₁]
    exact Linked.nil
  constructor
  · exact howned₁.append (refOf_eq hq₁) hlast₁ hnone (nextOf_eq hq₁) hne
  · rw [nextOf_set]
    apply Linked.link
    · rw [hnextOf₁]
      exact h.thread
    · exact h.last_mem
    · rw [hnextOf₁]
      exact h.last_none
    · exact hsingle
    · simpa using hne
  · simp
  · exact nextOf_eq hcellq
  · intro a ha
    rw [refOf_set, update_refOf hlast₁]
    rcases List.mem_append.mp ha with hal | haq
    · rw [hm₁, refOf_set, Function.update_of_ne]
      · exact h.sole a hal
      · rintro rfl
        exact hql hal
    · rw [List.mem_singleton.mp haq, refOf_eq hq₁]
      rfl
  · intro a d ha
    by_cases haq : a = q
    · rw [haq, hcellq, Option.some.injEq] at ha
      rw [if_pos haq, ← ha]
      change rem = qlen + (rem - qlen)
      grind
    · rw [if_neg haq]
      by_cases hal : a = last
      · rw [hal, cell_set, Option.some.injEq] at ha
        have htotal := h.totals last c hclast
        rw [if_pos rfl] at htotal
        rw [← ha, totOf_some hcellq]
        exact htotal
      · rw [hcell a haq hal] at ha
        have htotal := h.totals a d ha
        rw [if_neg hal] at htotal
        rw [htotal]
        congr 1
        cases hb : d.next with
        | none => rfl
        | some b =>
          by_cases hbl : b = last
          · rw [hbl, totOf_some hclast, totOf_some (cell_set _ _ _)]
          · obtain ⟨e, he⟩ := h.owned.exists_next ha hb
            have hbq : b ≠ q := by
              rintro rfl
              rw [hfree] at he
              cases he
            rw [totOf, totOf, hcell b hbq hbl]
  · intro a d ha
    by_cases haq : a = q
    · rw [haq, hcellq, Option.some.injEq] at ha
      rw [← ha]
      change 0 + qlen.toNat ≤ _
      rw [Nat.zero_add]
      exact hqlen
    · by_cases hal : a = last
      · rw [hal, cell_set, Option.some.injEq] at ha
        rw [← ha]
        exact h.window last c hclast
      · rw [hcell a haq hal] at ha
        exact h.window a d ha
  · intro a ha
    rw [List.mem_append, List.mem_singleton, not_or] at ha
    have hal : a ≠ last := by
      rintro rfl
      exact ha.1 h.last_mem
    rw [hcell a ha.2 hal, h.outside a ha.1]
  · exact h.memory
  · rw [h.tab, htab, List.append_assoc, List.singleton_append]
    rfl
  · exact h.pending

end Building

/-- The elements keep all but their links. -/
def Kept (m m' : PbufPool n) (l : List (Fin n)) : Prop :=
  ∀ a ∈ l, ∀ c, m.cell a = some c → ∃ b, m'.cell a = some { c with next := b }

/-- The number of elements that the loop still takes for `rem` bytes. -/
def elementsFor (rem : UInt16) : ℕ := (rem.toNat + (pbufPoolBufsize - 1)) / pbufPoolBufsize

lemma mempMalloc_nil (h : m.tab = []) : m.mempMalloc = none := by
  unfold mempMalloc
  rw [h]

lemma mempMalloc_cons (h : m.tab = q :: tab) : m.mempMalloc = some (q, { m with tab := tab }) := by
  unfold mempMalloc
  rw [h]

lemma toNat_min (rem room : UInt16) :
    (if rem < room then rem else room).toNat = min rem.toNat room.toNat := by
  by_cases h : rem < room
  · rw [if_pos h, min_eq_left (UInt16.lt_iff_toNat_lt.mp h).le]
  · rw [if_neg h, min_eq_right (UInt16.le_iff_toNat_le.mp (UInt16.not_lt.mp h))]

/-- What the loop does once it has a first element. -/
theorem pbufAllocLoop_building (hm₀ : m₀.Owned held) (h : Building m₀ m held p last l rem)
    (hrem : rem ≠ 0) {fuel : ℕ} (hfuel : m.tab.length < fuel) :
    (m.tab.length < elementsFor rem → pbufAllocLoop fuel m (some p) (some last) rem 0 =
      some (m₀.exhausted, none)) ∧
    (elementsFor rem ≤ m.tab.length → ∃ m' last' l',
      pbufAllocLoop fuel m (some p) (some last) rem 0 = some (m', some p) ∧
        Building m₀ m' held p last' (l ++ l') 0 ∧ l'.length = elementsFor rem ∧
        l'.map m'.lenOf = fillLengths pbufPoolBufsize (elementsFor rem) rem.toNat ∧
        (∀ a ∈ l', ∃ c, m'.cell a = some c ∧ c.payload = 0) ∧ Kept m m' l) := by
  induction fuel generalizing m last l rem with
  | zero => exact absurd hfuel (Nat.not_lt_zero _)
  | succ fuel ih =>
    have hpos : 0 < rem.toNat := by
      apply Nat.pos_of_ne_zero
      intro hzero
      exact hrem (UInt16.toNat_inj.mp hzero)
    rw [pbufAllocLoop]
    cases htab : m.tab with
    | nil =>
      rw [mempMalloc_nil htab]
      obtain ⟨count, hfree⟩ := h.giveUp hm₀ htab
      simp only [hfree, Option.map_some]
      constructor
      · intro _
        trivial
      · intro hle
        simp only [elementsFor, pbufPoolBufsize, List.length_nil] at hle
        omega
    | cons q tab =>
      have hql : q ∉ l := by
        have hnodup := hm₀.tab_nodup
        rw [h.tab, htab] at hnodup
        intro hmem
        exact (List.nodup_append.mp hnodup).2.2 q hmem q (List.mem_cons_self ..) rfl
      have hne : last ≠ q := by
        rintro rfl
        exact hql h.last_mem
      have hlive : ∀ a ∈ l, ∃ c, m.cell a = some c := fun a ha =>
        Owned.cell_ne_none_of_ref (by rw [h.sole a ha]; exact Nat.one_pos)
      obtain ⟨c, hclast⟩ := hlive last h.last_mem
      set qlen : UInt16 := if rem < UInt16.ofNat pbufPoolBufsize - 0 then rem
        else UInt16.ofNat pbufPoolBufsize - 0 with hqlen
      have hmin : qlen.toNat = min rem.toNat 590 := by
        rw [hqlen, toNat_min]
        rfl
      have hqle : qlen.toNat ≤ rem.toNat := by
        rw [hmin]
        exact min_le_left _ _
      have hsub : (rem - qlen).toNat = rem.toNat - qlen.toNat :=
        UInt16.toNat_sub_of_le _ _ (UInt16.le_iff_toNat_le.mpr hqle)
      have hroom : qlen.toNat ≤ pbufPoolBufsize := by
        rw [hmin]
        exact min_le_right _ _
      have hnext := h.next htab hroom hclast
      set m₂ := (({ m with tab := tab } : PbufPool n).set q ⟨none, 0, rem, qlen, 1⟩).set last
        { c with next := some q } with hm₂
      have hkept : Kept m m₂ l := by
        intro a ha d hd
        by_cases hal : a = last
        · rw [hal, hclast, Option.some.injEq] at hd
          exact ⟨some q, by rw [hal, ← hd, hm₂, cell_set]⟩
        · have haq : a ≠ q := by
            rintro rfl
            exact hql ha
          exact ⟨d.next, by rw [hm₂, cell_set_of_ne hal, cell_set_of_ne haq, cell_withTab, hd]⟩
      have hq₂ : m₂.cell q = some ⟨none, 0, rem, qlen, 1⟩ := by
        rw [hm₂, cell_set_of_ne hne.symm, cell_set]
      rw [mempMalloc_cons htab]
      have hlast₁ : (({ m with tab := tab } : PbufPool n).set q
          ⟨none, 0, rem, qlen, 1⟩).cell last = some c :=
        (cell_set_of_ne hne _).trans hclast
      simp only [← hqlen, hlast₁, Option.bind_eq_bind, Option.bind_some, UInt16.toNat_zero]
      clear_value qlen
      by_cases hdone : rem - qlen = 0
      · have hall : rem.toNat ≤ 590 := by
          rw [hdone] at hsub
          have hzero : (0 : UInt16).toNat = 0 := rfl
          omega
        have hone : elementsFor rem = 1 := by
          simp only [elementsFor, pbufPoolBufsize]
          omega
        rw [if_pos hdone, hone]
        constructor
        · intro hless
          rw [List.length_cons] at hless
          omega
        · intro _
          rw [hdone] at hnext
          refine ⟨m₂, q, [q], rfl, hnext, rfl, ?_, ?_, hkept⟩
          · rw [List.map_singleton, lenOf_eq hq₂, fillLengths, fillLengths, min_comm]
            exact congrArg (fun k => [k]) hmin
          · intro a ha
            rw [List.mem_singleton.mp ha]
            exact ⟨_, hq₂, rfl⟩
      · have hmore : elementsFor rem = elementsFor (rem - qlen) + 1 := by
          have hlong : 590 < rem.toNat := by
            by_contra hshort
            apply hdone
            apply UInt16.toNat_inj.mp
            rw [hsub]
            change _ = 0
            omega
          simp only [elementsFor, pbufPoolBufsize]
          rw [hsub]
          omega
        have hfuel' : m₂.tab.length < fuel := by
          rw [htab, List.length_cons] at hfuel
          exact Nat.lt_of_succ_lt_succ hfuel
        obtain ⟨hfail, hgo⟩ := ih hnext hdone hfuel'
        rw [if_neg hdone, hmore, List.length_cons]
        constructor
        · intro hless
          exact hfail (Nat.lt_of_succ_lt_succ hless)
        · intro hle
          obtain ⟨m', last', l', hloop, hbuilding, hlength, hlengths, hplaces, hkept'⟩ :=
            hgo (Nat.le_of_succ_le_succ hle)
          obtain ⟨b, hb⟩ := hkept' q (by simp) _ hq₂
          refine ⟨m', last', q :: l', hloop, ?_, ?_, ?_, ?_, ?_⟩
          · rw [List.append_cons]
            exact hbuilding
          · rw [List.length_cons, hlength]
          · have hrest : rem.toNat - pbufPoolBufsize = (rem - qlen).toNat := by
              rw [hsub, hmin, tsub_min]
              rfl
            rw [List.map_cons, lenOf_eq hb, hlengths, fillLengths, hrest, min_comm]
            exact congrArg (fun k => k :: _) hmin
          · rintro a (_ | ⟨_, ha⟩)
            · exact ⟨_, hb, rfl⟩
            · exact hplaces a ha
          · intro a ha d hd
            obtain ⟨b₁, hb₁⟩ := hkept a ha d hd
            obtain ⟨b₂, hb₂⟩ := hkept' a (List.mem_append_left _ ha) _ hb₁
            exact ⟨b₂, hb₂⟩

/-- What `pbuf_alloc` leaves when it returns `p`; `l` are the elements that it has taken. -/
structure Allocated (m m' : PbufPool n) (held : Multiset (Fin n)) (layer : PbufLayer)
    (length : UInt16) (p : Fin n) (l : List (Fin n)) : Prop where
  sound : m'.Sound (p ::ₘ held)
  thread : Linked m'.nextOf (some p) l
  tab : m.tab = l ++ m'.tab
  first : ∃ c, m'.cell p = some c ∧ c.totLen = length ∧ c.payload = layer.offset.toNat
  places : ∀ a ∈ l, a ≠ p → ∃ c, m'.cell a = some c ∧ c.payload = 0
  lengths : l.map m'.lenOf =
    fillLengths (pbufPoolBufsize - layer.offset.toNat) (layer.segments length.toNat) length.toNat
  sole : ∀ a ∈ l, m'.refOf a = 1
  outside : ∀ a ∉ l, m'.cell a = m.cell a
  memory : m'.memory = m.memory
  pending : m'.pbufFreeOoseqPending = m.pbufFreeOoseqPending

lemma Allocated.size (h : Allocated m m' held layer length p l) : m'.size l = length.toNat := by
  rw [PbufPool.size, h.lengths, sum_fillLengths_segments]

/-- `pbuf_alloc` fails exactly when there are fewer free elements than the length needs, and then
only turns the order of the free list and sets its flag; otherwise it chains the first free
elements. -/
theorem Sound.alloc (h : m.Sound held) (layer : PbufLayer) (length : UInt16) :
    (m.tab.length < layer.segments length.toNat →
      m.pbufAlloc layer length = some (m.exhausted, none)) ∧
    (layer.segments length.toNat ≤ m.tab.length → ∃ m' p l,
      m.pbufAlloc layer length = some (m', some p) ∧ l.length = layer.segments length.toNat ∧
        Allocated m m' held layer length p l) := by
  have hoffset := layer.offset_le
  rw [pbufAlloc, pbufAllocLoop]
  cases htab : m.tab with
  | nil =>
    have hsame : m.pbufPoolIsEmpty = m.exhausted := by
      rw [exhausted, htab, List.reverse_nil, ← htab]
      rfl
    rw [mempMalloc_nil htab]
    constructor
    · intro _
      rw [← hsame]
    · intro hle
      rw [PbufLayer.segments, List.length_nil] at hle
      omega
  | cons q tab =>
    have hfree : m.cell q = none := by
      rw [← h.mem_tab, htab]
      exact List.mem_cons_self ..
    set room := UInt16.ofNat pbufPoolBufsize - layer.offset with hroom
    set qlen : UInt16 := if length < room then length else room with hqlen
    have hroomNat : room.toNat = 590 - layer.offset.toNat := by
      rw [hroom, UInt16.toNat_sub_of_le]
      · rfl
      · rw [UInt16.le_iff_toNat_le]
        exact hoffset.trans (by decide)
    have hmin : qlen.toNat = min length.toNat (590 - layer.offset.toNat) := by
      rw [hqlen, toNat_min, hroomNat]
    have hqle : qlen.toNat ≤ length.toNat := by
      rw [hmin]
      exact min_le_left _ _
    have hsub : (length - qlen).toNat = length.toNat - qlen.toNat :=
      UInt16.toNat_sub_of_le _ _ (UInt16.le_iff_toNat_le.mpr hqle)
    rw [mempMalloc_cons htab]
    simp only [← hqlen, Option.bind_eq_bind, Option.bind_some]
    clear_value qlen room
    set m₁ := ({ m with tab := tab } : PbufPool n).set q
      ⟨none, layer.offset.toNat, length, qlen, 1⟩ with hm₁
    have hq₁ : m₁.cell q = some ⟨none, layer.offset.toNat, length, qlen, 1⟩ := cell_set _ _ _
    have howned₁ : m₁.Owned (q ::ₘ held) := h.toOwned.alloc htab rfl rfl
    have hcell (a : Fin n) (haq : a ≠ q) : m₁.cell a = m.cell a := cell_set_of_ne haq _
    have hbuilding : Building m m₁ held q q [q] (length - qlen) := by
      constructor
      · exact howned₁
      · apply Linked.cons
        rw [nextOf_eq hq₁]
        exact Linked.nil
      · exact List.mem_singleton_self q
      · exact nextOf_eq hq₁
      · intro a ha
        rw [List.mem_singleton.mp ha, refOf_eq hq₁]
        rfl
      · intro a c ha
        by_cases haq : a = q
        · rw [haq, hq₁, Option.some.injEq] at ha
          rw [if_pos haq, ← ha]
          change length = qlen + (length - qlen)
          grind
        · rw [hcell a haq] at ha
          rw [if_neg haq, h.totals a c ha]
          congr 1
          symm
          apply totOf_congr
          intro b hb
          apply hcell
          rintro rfl
          obtain ⟨d, hd⟩ := h.toOwned.exists_next ha hb
          rw [hfree] at hd
          cases hd
      · intro a c ha
        by_cases haq : a = q
        · rw [haq, hq₁, Option.some.injEq] at ha
          rw [← ha]
          change layer.offset.toNat + qlen.toNat ≤ 590
          omega
        · rw [hcell a haq] at ha
          exact h.window a c ha
      · intro a ha
        exact hcell a (by simpa using ha)
      · rfl
      · exact htab
      · rfl
    by_cases hdone : length - qlen = 0
    · have hall : length.toNat ≤ 590 - layer.offset.toNat := by
        rw [hdone] at hsub
        have hzero : (0 : UInt16).toNat = 0 := rfl
        omega
      have hone : layer.segments length.toNat = 1 := by
        rw [PbufLayer.segments, pbufPoolBufsize]
        omega
      rw [if_pos hdone, hone]
      constructor
      · intro hless
        rw [List.length_cons] at hless
        omega
      · intro _
        rw [hdone] at hbuilding
        refine ⟨m₁, q, [q], rfl, rfl, hbuilding.finish, hbuilding.thread, hbuilding.tab,
          ⟨_, hq₁, rfl, rfl⟩, ?_, ?_, hbuilding.sole, hbuilding.outside, hbuilding.memory,
          hbuilding.pending⟩
        · intro a ha haq
          exact absurd (List.mem_singleton.mp ha) haq
        · rw [List.map_singleton, lenOf_eq hq₁, hone, fillLengths, fillLengths, min_comm]
          exact congrArg (fun k => [k]) hmin
    · have hmore : layer.segments length.toNat = elementsFor (length - qlen) + 1 := by
        have hlong : 590 - layer.offset.toNat < length.toNat := by
          by_contra hshort
          apply hdone
          apply UInt16.toNat_inj.mp
          rw [hsub]
          change _ = 0
          omega
        rw [PbufLayer.segments, elementsFor, pbufPoolBufsize, hsub]
        omega
      have hfuel : m₁.tab.length < (q :: tab).length := Nat.lt_succ_self _
      obtain ⟨hfail, hgo⟩ := pbufAllocLoop_building h.toOwned hbuilding hdone hfuel
      rw [if_neg hdone, hmore]
      constructor
      · intro hless
        exact hfail (Nat.lt_of_succ_lt_succ hless)
      · intro hle
        obtain ⟨m', last', l', hloop, hfinal, hlength, hlengths, hplaces, hkept⟩ :=
          hgo (Nat.le_of_succ_le_succ hle)
        obtain ⟨b, hb⟩ := hkept q (List.mem_singleton_self q) _ hq₁
        refine ⟨m', q, q :: l', hloop, ?_, hfinal.finish, hfinal.thread, hfinal.tab,
          ⟨_, hb, rfl, rfl⟩, ?_, ?_, hfinal.sole, hfinal.outside, hfinal.memory, hfinal.pending⟩
        · rw [List.length_cons, hlength]
        · rintro a (_ | ⟨_, ha⟩) haq
          · exact absurd rfl haq
          · exact hplaces a ha
        · have hrest : length.toNat - (pbufPoolBufsize - layer.offset.toNat) =
              (length - qlen).toNat := by
            rw [hsub, hmin, tsub_min]
            rfl
          rw [List.map_cons, lenOf_eq hb, hlengths, hmore, fillLengths, hrest, min_comm]
          exact congrArg (fun k => k :: _) hmin

end PbufPool

end EthoSlip
