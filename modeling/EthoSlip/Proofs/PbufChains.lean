import EthoSlip.Proofs.PbufPool

/-!
# Chains of the pool

In a sound pool every `tot_len` is the `len` of its `pbuf` and the `tot_len` behind it, as a
`u16_t`, and every payload lies in the memory of its element. Each function of `pbuf.c` keeps a pool
sound when it is called on the head of a chain.
-/

namespace EthoSlip
open Lib

namespace PbufPool

variable {n : ℕ} {m m' : PbufPool n} {held held' : Multiset (Fin n)} {a p q t : Fin n}
  {l : List (Fin n)} {c c' tail : PbufCell n}

def totOf (m : PbufPool n) : Option (Fin n) → UInt16
  | none => 0
  | some a => ((m.cell a).map PbufCell.totLen).getD 0

lemma totOf_some (h : m.cell a = some c) : m.totOf (some a) = c.totLen := by
  rw [totOf, h, Option.map_some, Option.getD_some]

lemma totOf_congr {p : Option (Fin n)} (h : ∀ a, p = some a → m'.cell a = m.cell a) :
    m'.totOf p = m.totOf p := by
  cases p with
  | none => rfl
  | some a => rw [totOf, totOf, h a rfl]

structure Sound (m : PbufPool n) (held : Multiset (Fin n)) : Prop extends Owned m held where
  totals : ∀ a c, m.cell a = some c → c.totLen = c.len + m.totOf c.next
  window : ∀ a c, m.cell a = some c → c.payload + c.len.toNat ≤ pbufPoolBufsize

lemma init_sound (memory : Fin n → Vector Byte pbufPoolBufsize) : (init memory).Sound 0 where
  toOwned := init_owned memory
  totals _ _ h := by cases h
  window _ _ h := by cases h

lemma Owned.thread_live (h : m.Owned held) {l : List (Fin n)} (hl : Linked m.nextOf (some p) l)
    (hp : m.cell p = some c) (ha : a ∈ l) : ∃ c, m.cell a = some c := by
  rcases hl.first_or_behind ha with hfirst | ⟨b, -, hb⟩
  · rw [Option.some.injEq] at hfirst
    exact ⟨c, hfirst ▸ hp⟩
  · apply Owned.cell_ne_none_of_ref
    rw [h.counted a]
    exact Nat.add_pos_right _ (indegree_pos hb)

namespace Sound

lemma recounted (h : m.Sound held) (howned : m'.Owned held') (hrecounted : Recounted m m' l) :
    m'.Sound held' where
  toOwned := howned
  totals a c' ha := by
    obtain ⟨c, hc, hc'⟩ := hrecounted.cell a c' ha
    have htotal := h.totals a c hc
    have hnext : m'.totOf c.next = m.totOf c.next := by
      cases hb : c.next with
      | none => rfl
      | some b =>
        obtain ⟨d', hd'⟩ := howned.exists_next ha (by rw [hc', hb])
        obtain ⟨d, hd, hdd'⟩ := hrecounted.cell b d' hd'
        rw [totOf_some hd', totOf_some hd, hdd']
    rw [hc', hnext]
    exact htotal
  window a c' ha := by
    obtain ⟨c, hc, hc'⟩ := hrecounted.cell a c' ha
    rw [hc']
    exact h.window a c hc

lemma free (h : m.Sound (p ::ₘ held)) (hl : Linked m.nextOf (some p) l) :
    ∃ m' count, m.pbufFree p = some (m', count) ∧ m'.Sound held ∧ Recounted m m' l := by
  obtain ⟨m', count, hcall, howned, hrecounted⟩ := h.toOwned.free hl
  exact ⟨m', count, hcall, h.recounted howned hrecounted, hrecounted⟩

lemma ref (h : m.Sound held) (hp : m.cell p = some c) (hroom : c.ref + 1 ≠ 0) :
    ∃ m', m.pbufRef p = some m' ∧ m'.Sound (p ::ₘ held) ∧ Recounted m m' [p] := by
  have hrecounted : Recounted m (m.set p { c with ref := c.ref + 1 }) [p] := by
    refine ⟨?_, ?_, rfl⟩
    · intro a c' ha
      by_cases hap : a = p
      · rw [hap, cell_set, Option.some.injEq] at ha
        refine ⟨c, by rw [hap, hp], ?_⟩
        rw [← ha]
      · rw [cell_set_of_ne hap] at ha
        exact ⟨c', ha, rfl⟩
    · intro a ha
      rw [cell_set_of_ne (by simpa using ha)]
  refine ⟨_, ?_, h.recounted (h.toOwned.share hp hroom) hrecounted, hrecounted⟩
  rw [pbufRef, hp, Option.bind_eq_bind, Option.bind_some, if_neg hroom]
  rfl

/-- The head of a chain is written. -/
lemma setHead (h : m.Sound held) (hp : m.cell p = some c) (hhead : IsHead m.nextOf p)
    (howned : (m.set p c').Owned held') (htotal : c'.totLen = c'.len + m.totOf c'.next)
    (hnext : c'.next ≠ some p) (hwindow : c'.payload + c'.len.toNat ≤ pbufPoolBufsize) :
    (m.set p c').Sound held' where
  toOwned := howned
  totals a d ha := by
    by_cases hap : a = p
    · rw [hap, cell_set, Option.some.injEq] at ha
      subst ha
      rw [htotal]
      congr 1
      symm
      apply totOf_congr
      intro b hb
      apply cell_set_of_ne
      rintro rfl
      exact hnext hb
    · rw [cell_set_of_ne hap] at ha
      rw [h.totals a d ha]
      congr 1
      symm
      apply totOf_congr
      intro b hb
      apply cell_set_of_ne
      rintro rfl
      exact hhead a ((nextOf_eq ha).trans hb)
  window a d ha := by
    by_cases hap : a = p
    · rw [hap, cell_set, Option.some.injEq] at ha
      rw [← ha]
      exact hwindow
    · rw [cell_set_of_ne hap] at ha
      exact h.window a d ha

/-- Lengths and payload of the head of a chain are written. -/
lemma setFields (h : m.Sound held) (hp : m.cell p = some c) (hhead : IsHead m.nextOf p)
    (hnext : c'.next = c.next) (href : c'.ref = c.ref) (htotal : c'.totLen = c'.len + m.totOf c.next)
    (hwindow : c'.payload + c'.len.toNat ≤ pbufPoolBufsize) : (m.set p c').Sound held := by
  apply h.setHead hp hhead (h.toOwned.set_fields hp hnext href)
  · rw [hnext]
    exact htotal
  · rw [hnext, ← nextOf_eq hp]
    exact hhead p
  · exact hwindow

end Sound

def mapCells (m : PbufPool n) (l : List (Fin n)) (f : PbufCell n → PbufCell n) : PbufPool n :=
  { m with cell := fun a => if l.contains a then (m.cell a).map f else m.cell a }

section MapCells

variable {f : PbufCell n → PbufCell n}

lemma cell_mapCells_of_mem (h : a ∈ l) : (m.mapCells l f).cell a = (m.cell a).map f :=
  if_pos (List.contains_iff_mem.mpr h)

lemma cell_mapCells_of_notMem (h : a ∉ l) : (m.mapCells l f).cell a = m.cell a :=
  if_neg (fun hcontains => h (List.contains_iff_mem.mp hcontains))

lemma cell_mapCells_eq_none (a : Fin n) : (m.mapCells l f).cell a = none ↔ m.cell a = none := by
  by_cases ha : a ∈ l
  · rw [cell_mapCells_of_mem ha, Option.map_eq_none_iff]
  · rw [cell_mapCells_of_notMem ha]

lemma mapCells_nil (m : PbufPool n) (f : PbufCell n → PbufCell n) : m.mapCells [] f = m := rfl

lemma mapCells_set (hp : m.cell p = some c) (hnotMem : p ∉ l) :
    (m.set p (f c)).mapCells l f = m.mapCells (p :: l) f := by
  have hcell : ((m.set p (f c)).mapCells l f).cell = (m.mapCells (p :: l) f).cell := by
    funext a
    by_cases hap : a = p
    · rw [hap, cell_mapCells_of_notMem hnotMem, cell_set,
        cell_mapCells_of_mem (List.mem_cons_self ..), hp, Option.map_some]
    · by_cases ha : a ∈ l
      · rw [cell_mapCells_of_mem ha, cell_set_of_ne hap,
          cell_mapCells_of_mem (List.mem_cons_of_mem p ha)]
      · rw [cell_mapCells_of_notMem ha, cell_set_of_ne hap, cell_mapCells_of_notMem]
        simp [hap, ha]
  unfold mapCells at hcell ⊢
  rw [PbufPool.mk.injEq]
  exact ⟨hcell, rfl, rfl, rfl⟩

lemma refOf_mapCells (hf : ∀ c, (f c).ref = c.ref) (l : List (Fin n)) :
    (m.mapCells l f).refOf = m.refOf := by
  funext a
  by_cases ha : a ∈ l
  · rw [refOf, refOf, cell_mapCells_of_mem ha, Option.map_map]
    congr 2
    funext c
    rw [Function.comp_apply, hf]
  · rw [refOf, refOf, cell_mapCells_of_notMem ha]

/-- The links of a mapped chain are the only ones that change, and its counts do not. -/
lemma Owned.mapCells (h : m.Owned held) (hf : ∀ c, (f c).ref = c.ref)
    (hthreaded : Threaded (m.mapCells l f).nextOf)
    (hcounted : Counted (m.mapCells l f).nextOf m.refOf held') : (m.mapCells l f).Owned held' := by
  have href := refOf_mapCells (m := m) hf l
  apply h.rebuild
  · rfl
  · exact cell_mapCells_eq_none
  · intro a hzero
    rw [href] at hzero
    exact (cell_mapCells_eq_none a).mpr (h.live a hzero)
  · exact hthreaded
  · rw [href]
    exact hcounted

end MapCells

/-- What `pbuf_cat` does with a `pbuf` of the first chain. -/
def catCell (totLen : UInt16) (t : Fin n) (c : PbufCell n) : PbufCell n :=
  { c with totLen := c.totLen + totLen, next := c.next.or (some t) }

lemma pbufCatLoop_eq (hl : Linked m.nextOf (some p) l) (hlive : ∀ a ∈ l, ∃ c, m.cell a = some c)
    (hlast : ∀ a ∈ l, ∀ c, m.cell a = some c → c.next = none → c.totLen = c.len)
    (ht : m.cell t = some tail) (htl : t ∉ l) {fuel : ℕ} (hfuel : l.length ≤ fuel) :
    pbufCatLoop t fuel m p = some (m.mapCells l (catCell tail.totLen t)) := by
  induction l generalizing m p fuel with
  | nil => cases hl
  | cons b l ih =>
    obtain ⟨l', hl', htail⟩ := hl.eq_cons
    rw [List.cons.injEq] at hl'
    obtain ⟨rfl, rfl⟩ := hl'
    obtain ⟨fuel, rfl⟩ : ∃ k, fuel = k + 1 := Nat.exists_eq_succ_of_ne_zero (by
      rw [List.length_cons] at hfuel
      omega)
    obtain ⟨c, hp⟩ := hlive b (List.mem_cons_self ..)
    have hnotMem : b ∉ l := (List.nodup_cons.mp hl.nodup).1
    rw [pbufCatLoop, hp, ht]
    simp only [Option.bind_eq_bind, Option.bind_some]
    rw [nextOf_eq hp] at htail
    cases hnext : c.next with
    | none =>
      rw [hnext] at htail
      cases htail
      have htotal := hlast b (List.mem_cons_self ..) c hp hnext
      have hcell : catCell tail.totLen t c =
          { c with totLen := c.totLen + tail.totLen, next := some t } := by
        rw [catCell, hnext, Option.none_or]
      rw [← mapCells_set hp List.not_mem_nil, mapCells_nil, hcell]
      simp [htotal]
    | some q =>
      have hcell : catCell tail.totLen t c =
          { c with totLen := c.totLen + tail.totLen, next := some q } := by
        rw [catCell, hnext, Option.some_or]
      rw [hnext] at htail
      rw [← mapCells_set hp hnotMem, ← hcell]
      have hother : ∀ a ∈ l, (m.set b (catCell tail.totLen t c)).cell a = m.cell a := by
        intro a ha
        apply cell_set_of_ne
        rintro rfl
        exact hnotMem ha
      apply ih
      · rw [nextOf_set, hcell]
        change Linked (Function.update m.nextOf b (some q)) (some q) l
        rw [← hnext, update_nextOf hp, hnext]
        exact htail
      · intro a ha
        rw [hother a ha]
        exact hlive a (List.mem_cons_of_mem b ha)
      · intro a ha
        rw [hother a ha]
        exact hlast a (List.mem_cons_of_mem b ha)
      · rw [cell_set_of_ne]
        · exact ht
        · rintro rfl
          exact htl (List.mem_cons_self ..)
      · exact fun ha => htl (List.mem_cons_of_mem b ha)
      · rw [List.length_cons] at hfuel
        omega

lemma nextOf_catCell (hl : Linked m.nextOf (some p) l) {x : Fin n} (hx : x ∈ l)
    (hlast : m.nextOf x = none) (hlive : ∀ a ∈ l, ∃ c, m.cell a = some c) (totLen : UInt16) :
    (m.mapCells l (catCell totLen t)).nextOf = Function.update m.nextOf x (some t) := by
  funext a
  by_cases ha : a ∈ l
  · obtain ⟨c, hc⟩ := hlive a ha
    rw [nextOf, cell_mapCells_of_mem ha, hc, Option.map_some, Option.bind_some, catCell]
    by_cases hax : a = x
    · subst hax
      rw [nextOf_eq hc] at hlast
      rw [Function.update_self, hlast, Option.none_or]
    · rw [Function.update_of_ne hax, nextOf_eq hc]
      cases hnext : c.next with
      | none => exact absurd (hl.last_unique ha hx ((nextOf_eq hc).trans hnext) hlast) hax
      | some b => rw [Option.some_or]
  · rw [nextOf, cell_mapCells_of_notMem ha, Function.update_of_ne, nextOf]
    rintro rfl
    exact ha hx

namespace Sound

/-- `pbuf_cat` of two chains: the lengths of the first one grow by that of the second one, and the
reference to the second one becomes a link. -/
theorem cat (h : m.Sound (t ::ₘ held)) (hp : m.cell p = some c) (hhead : IsHead m.nextOf p)
    (ht : m.cell t = some tail) (hthead : IsHead m.nextOf t) (hpt : p ≠ t)
    (hl : Linked m.nextOf (some p) l) {lt : List (Fin n)} (hlt : Linked m.nextOf (some t) lt) :
    m.pbufCat p t = some (m.mapCells l (catCell tail.totLen t)) ∧
      (m.mapCells l (catCell tail.totLen t)).Sound held ∧
      Linked (m.mapCells l (catCell tail.totLen t)).nextOf (some p) (l ++ lt) := by
  have hlive : ∀ a ∈ l, ∃ c, m.cell a = some c := fun a ha => h.toOwned.thread_live hl hp ha
  have hdisjoint := h.threaded.disjoint hhead hthead hpt hl hlt
  have htl : t ∉ l := fun hmem => hdisjoint hmem hlt.mem_head
  obtain ⟨x, hx, hlast⟩ := hl.exists_last
  have hxt : x ∉ lt := fun hmem => hdisjoint hx hmem
  have hnext := nextOf_catCell (t := t) hl hx hlast hlive tail.totLen
  refine ⟨?_, ?_, ?_⟩
  · apply pbufCatLoop_eq hl hlive ?_ ht htl (Owned.thread_length_le hl)
    intro a _ c hc hnone
    rw [h.totals a c hc, hnone]
    exact UInt16.add_zero _
  · constructor
    · apply h.toOwned.mapCells (f := catCell tail.totLen t) (fun _ => rfl)
      · rw [hnext]
        exact h.threaded.link hlast hthead hlt hxt
      · rw [hnext]
        exact h.counted.link hlast
    · intro a c' ha
      by_cases hal : a ∈ l
      · rw [cell_mapCells_of_mem hal] at ha
        obtain ⟨c, hc, rfl⟩ := Option.map_eq_some_iff.mp ha
        have htotal := h.totals a c hc
        cases hb : c.next with
        | none =>
          rw [hb] at htotal
          rw [catCell, hb, Option.none_or]
          rw [totOf_some ((cell_mapCells_of_notMem htl).trans ht)]
          rw [htotal]
          exact congrArg (· + tail.totLen) (UInt16.add_zero _)
        | some b =>
          have hbl : b ∈ l := hl.next_mem hal ((nextOf_eq hc).trans hb)
          obtain ⟨d, hd⟩ := hlive b hbl
          have hd' : (m.mapCells l (catCell tail.totLen t)).cell b = some (catCell tail.totLen t d) := by
            rw [cell_mapCells_of_mem hbl, hd, Option.map_some]
          rw [hb, totOf_some hd] at htotal
          rw [catCell, hb, Option.some_or, totOf_some hd', htotal]
          exact UInt16.add_assoc _ _ _
      · rw [cell_mapCells_of_notMem hal] at ha
        rw [h.totals a c' ha]
        congr 1
        symm
        apply totOf_congr
        intro b hb
        apply cell_mapCells_of_notMem
        exact h.threaded.not_mem_next hhead hl hal ((nextOf_eq ha).trans hb)
    · intro a c' ha
      by_cases hal : a ∈ l
      · rw [cell_mapCells_of_mem hal] at ha
        obtain ⟨c, hc, rfl⟩ := Option.map_eq_some_iff.mp ha
        exact h.window a c hc
      · rw [cell_mapCells_of_notMem hal] at ha
        exact h.window a c' ha
  · rw [hnext]
    exact hl.link hx hlast hlt hxt

end Sound

end PbufPool

end EthoSlip
