import EthoSlip.Proofs.PbufPieces

/-!
# Chains that become shorter

`pbuf_dechain`, `pbuf_realloc` and the header functions keep a pool sound. The reference that a cut
link held is given back by `pbuf_free`, before or after the link is cut.
-/

namespace EthoSlip
open Lib

namespace PbufPool

variable {n : ℕ} {m m' : PbufPool n} {held held' : Multiset (Fin n)} {a p q r t : Fin n}
  {l : List (Fin n)} {c c' tail : PbufCell n} {d : ℕ}

lemma set_eq_self (hp : m.cell p = some c) : m.set p c = m := by
  rw [set, ← hp, Function.update_eq_self]

lemma Owned.cut (h : m.Owned held) (hp : m.cell p = some c) (hq : c.next = some q)
    (hnext : c'.next = none) (href : c'.ref = c.ref) : (m.set p c').Owned (q ::ₘ held) := by
  apply h.set hp
  · rw [href]
    exact h.ref_ne_zero hp
  · rw [hnext]
    exact h.threaded.cut p
  · rw [hnext, href, update_refOf hp]
    exact h.counted.cut ((nextOf_eq hp).trans hq)

/-- What is behind a link of a thread does not contain the element before it. -/
lemma Owned.notMem_behind (hp : m.cell p = some c) (hl : Linked m.nextOf c.next l) : p ∉ l := by
  rw [← nextOf_eq hp] at hl
  exact (List.nodup_cons.mp (Linked.cons hl).nodup).1

lemma mempFree_set (h : q ≠ p) (c : PbufCell n) :
    (m.set q c).mempFree p = (m.mempFree p).set q c := by
  unfold mempFree set
  rw [Function.update_comm h]

/-- `pbuf_free` does not look at an element that is not in the chain. -/
lemma pbufFreeLoop_set {p : Option (Fin n)} (hl : Linked m.nextOf p l) (hq : q ∉ l)
    (c : PbufCell n) (fuel : ℕ) (count : UInt8) :
    pbufFreeLoop fuel (m.set q c) p count =
      (pbufFreeLoop fuel m p count).map (fun r => (r.1.set q c, r.2)) := by
  induction fuel generalizing m p l count with
  | zero =>
    cases p with
    | none => rw [pbufFreeLoop, pbufFreeLoop, Option.map_some]
    | some p => rw [pbufFreeLoop, pbufFreeLoop, Option.map_none]
  | succ fuel ih =>
    cases p with
    | none => rw [pbufFreeLoop, pbufFreeLoop, Option.map_some]
    | some p =>
      obtain ⟨l, rfl, htail⟩ := hl.eq_cons
      rw [List.mem_cons, not_or] at hq
      rw [pbufFreeLoop, pbufFreeLoop, cell_set_of_ne (Ne.symm hq.1)]
      cases hp : m.cell p with
      | none => rfl
      | some d =>
        simp only [Option.bind_eq_bind, Option.bind_some]
        by_cases hzero : d.ref = 0
        · rw [if_pos hzero, if_pos hzero, Option.map_none]
        · rw [if_neg hzero, if_neg hzero]
          by_cases hlast : d.ref - 1 = 0
          · have hrest : Linked (m.mempFree p).nextOf d.next l := by
              rw [nextOf_mempFree, ← nextOf_eq hp]
              exact htail.update (List.nodup_cons.mp hl.nodup).1 none
            rw [if_pos hlast, if_pos hlast, mempFree_set hq.1, ih hrest hq.2]
          · rw [if_neg hlast, if_neg hlast, Option.pure_def, Option.map_some]
            unfold set
            rw [Function.update_comm hq.1]

namespace Sound

theorem chain (h : m.Sound (t ::ₘ held)) (hp : m.cell p = some c) (hhead : IsHead m.nextOf p)
    (ht : m.cell t = some tail) (hthead : IsHead m.nextOf t) (hpt : p ≠ t)
    (hroom : tail.ref + 1 ≠ 0) (hl : Linked m.nextOf (some p) l) :
    ∃ m', m.pbufChain p t = some m' ∧ m'.Sound (t ::ₘ held) ∧
      Recounted (m.mapCells l (catCell tail.totLen t)) m' [t] := by
  obtain ⟨lt, hlt⟩ := h.threaded.ends t
  obtain ⟨hcat, hsound, -⟩ := h.cat hp hhead ht hthead hpt hl hlt
  have htl : t ∉ l := fun hmem => h.threaded.disjoint hhead hthead hpt hl hlt hmem hlt.mem_head
  obtain ⟨m', hcall, hsound', hrecounted⟩ :=
    hsound.ref ((cell_mapCells_of_notMem htl).trans ht) hroom
  refine ⟨m', ?_, hsound', hrecounted⟩
  rw [pbufChain, hcat, Option.bind_eq_bind, Option.bind_some, hcall]

lemma cutHead (h : m.Sound held) (hp : m.cell p = some c) (hhead : IsHead m.nextOf p)
    (hq : c.next = some q) :
    (m.set p { c with next := none, totLen := c.len }).Sound (q ::ₘ held) := by
  apply h.setHead hp hhead
  · exact h.toOwned.cut hp hq rfl rfl
  · exact (UInt16.add_zero _).symm
  · exact nofun
  · exact h.window p c hp

/-- `pbuf_dechain` passes its assertions where the `tot_len` of the chain has not overflowed, and
leaves the first `pbuf` alone. What nobody else refers to is given back; its number is a `u8_t`, so
that it can look as if nothing had been. -/
theorem dechain (h : m.Sound held) (hp : m.cell p = some c) (hhead : IsHead m.nextOf p)
    (hl : Linked m.nextOf c.next l) :
    (c.len ≤ c.totLen → ∃ m' rest, m.pbufDechain p = some (m', rest) ∧ m'.Sound held ∧
      Recounted (m.set p { c with next := none, totLen := c.len }) m' l ∧
      ((∀ a ∈ l, m.refOf a = 1) → rest = if 0 < UInt8.ofNat l.length then none else c.next)) ∧
    (¬c.len ≤ c.totLen → m.pbufDechain p = none) := by
  have htotal := h.totals p c hp
  rw [pbufDechain, hp, Option.bind_eq_bind, Option.bind_some]
  cases hq : c.next with
  | none =>
    rw [hq] at htotal hl
    cases hl
    rw [totOf, UInt16.add_zero] at htotal
    constructor
    · intro _
      have hsame : { c with next := none, totLen := c.len } = c := by
        cases c with
        | mk next payload totLen len ref =>
          simp only at hq htotal
          rw [hq, htotal]
      refine ⟨m, none, ?_, h, ?_, fun _ => rfl⟩
      · simp [htotal]
      · rw [hsame, set_eq_self hp]
        exact Recounted.refl m
    · intro hlt
      rw [htotal] at hlt
      exact absurd (UInt16.le_refl _) hlt
  | some q =>
    obtain ⟨tail, htail⟩ := h.toOwned.exists_next hp hq
    rw [hq, totOf_some htail] at htotal
    have hnat := congrArg UInt16.toNat htotal
    rw [UInt16.toNat_add] at hnat
    have hlen := c.len.toNat_lt
    have htailLen := tail.totLen.toNat_lt
    simp only [htail, Option.bind_eq_bind, Option.bind_some]
    constructor
    · intro hle
      have hle' := UInt16.le_iff_toNat_le.mp hle
      have hassert : ¬(tail.totLen.toNat : Int) ≠ (c.totLen.toNat : Int) - c.len.toNat := by
        omega
      have hrest : c.totLen - c.len = tail.totLen := by
        rw [htotal, UInt16.add_comm, UInt16.add_sub_cancel]
      have hpq : p ≠ q := by
        intro hpq
        rw [hpq] at hp
        exact hhead p (hpq ▸ (nextOf_eq hp).trans hq)
      rw [if_neg hassert, hrest]
      have hsame : m.set q { tail with totLen := tail.totLen } = m := set_eq_self htail
      rw [hsame]
      have hbehind : Linked (m.set p { c with next := none, totLen := c.len }).nextOf (some q) l := by
        rw [nextOf_set, ← hq]
        exact hl.update (Owned.notMem_behind hp hl) none
      obtain ⟨m', count, hfree, hsound, hrecounted⟩ := (h.cutHead hp hhead hq).free hbehind
      rw [hfree, Option.bind_some]
      refine ⟨m', _, rfl, hsound, hrecounted, ?_⟩
      intro hsole
      have href : (m.set p { c with next := none, totLen := c.len }).refOf = m.refOf := by
        rw [refOf_set, update_refOf hp]
      have hcount := pbufFreeLoop_sole hbehind (fun a ha => by rw [href]; exact hsole a ha)
        (Owned.thread_length_le hbehind) 0
      rw [← pbufFree, hfree, Option.some.injEq, Prod.mk.injEq] at hcount
      rw [hcount.2, UInt8.zero_add]
    · intro hlt
      rw [UInt16.le_iff_toNat_le] at hlt
      rw [if_pos (by omega)]

end Sound

/-- The `tot_len` of what a thread begins with, and of what is behind it. -/
lemma Sound.totOf_append (h : m.Sound held) {p : Option (Fin n)} {l₁ l₂ : List (Fin n)}
    (hl : Linked m.nextOf p (l₁ ++ l₂)) (hlive : ∀ a ∈ l₁, ∃ c, m.cell a = some c) :
    ∃ r, Linked m.nextOf r l₂ ∧ m.totOf p = UInt16.ofNat (m.size l₁) + m.totOf r := by
  induction l₁ generalizing p with
  | nil => exact ⟨p, hl, (UInt16.zero_add _).symm⟩
  | cons a l₁ ih =>
    rw [List.cons_append] at hl
    obtain ⟨c, hc⟩ := hlive a (List.mem_cons_self ..)
    cases hl with
    | cons hl =>
      obtain ⟨r, hr, htot⟩ := ih hl (fun b hb => hlive b (List.mem_cons_of_mem a hb))
      refine ⟨r, hr, ?_⟩
      rw [totOf_some hc, h.totals a c hc, ← nextOf_eq hc, htot, size_cons, lenOf_eq hc,
        UInt16.ofNat_add, UInt16.ofNat_toNat, UInt16.add_assoc]

lemma Sound.totOf_eq (h : m.Sound held) {p : Option (Fin n)} (hl : Linked m.nextOf p l)
    (hlive : ∀ a ∈ l, ∃ c, m.cell a = some c) : m.totOf p = UInt16.ofNat (m.size l) := by
  rw [← List.append_nil l] at hl
  obtain ⟨r, hr, htot⟩ := h.totOf_append hl hlive
  cases hr
  rw [htot]
  exact UInt16.add_zero _

/-- `tot_len` is never more than there is. -/
lemma Sound.totLen_le_size (h : m.Sound held) (hp : m.cell p = some c)
    (hl : Linked m.nextOf (some p) l) : c.totLen.toNat ≤ m.size l := by
  have htot := h.totOf_eq hl (fun a ha => h.toOwned.thread_live hl hp ha)
  rw [totOf_some hp] at htot
  rw [htot, UInt16.toNat_ofNat']
  exact Nat.mod_le (m.size l) (2 ^ 16)

/-- What `pbuf_realloc` does with a `pbuf` that is kept whole. -/
def shrinkCell (shrink : UInt16) (c : PbufCell n) : PbufCell n :=
  { c with totLen := c.totLen - shrink }

lemma pbufReallocLoop_eq (shrink : UInt16) (hl : Linked m.nextOf (some p) l)
    (hlive : ∀ a ∈ l, ∃ c, m.cell a = some c) {remLen : UInt16} (hsize : remLen.toNat ≤ m.size l)
    {fuel : ℕ} (hfuel : l.length ≤ fuel) :
    ∃ l₁ q l₂ c rem, l = l₁ ++ q :: l₂ ∧ m.cell q = some c ∧
      pbufReallocLoop shrink fuel m p remLen = some (m.mapCells l₁ (shrinkCell shrink), q, rem) ∧
      rem ≤ c.len ∧ remLen.toNat = m.size l₁ + rem.toNat ∧ (l₁ ≠ [] → 0 < rem.toNat) := by
  induction l generalizing m p fuel remLen with
  | nil => cases hl
  | cons b l ih =>
    obtain ⟨l', hl', htail⟩ := hl.eq_cons
    rw [List.cons.injEq] at hl'
    obtain ⟨rfl, rfl⟩ := hl'
    obtain ⟨fuel, rfl⟩ : ∃ k, fuel = k + 1 := Nat.exists_eq_succ_of_ne_zero (by
      rw [List.length_cons] at hfuel
      omega)
    obtain ⟨c, hp⟩ := hlive b (List.mem_cons_self ..)
    have hnotMem : b ∉ l := (List.nodup_cons.mp hl.nodup).1
    rw [pbufReallocLoop, hp, Option.bind_eq_bind, Option.bind_some]
    by_cases hmore : c.len < remLen
    · rw [if_pos hmore]
      have hless := UInt16.lt_iff_toNat_lt.mp hmore
      rw [size_cons, lenOf_eq hp] at hsize
      have hsub : (remLen - c.len).toNat = remLen.toNat - c.len.toNat :=
        UInt16.toNat_sub_of_le _ _ (UInt16.le_of_lt hmore)
      rw [nextOf_eq hp] at htail
      cases hnext : c.next with
      | none =>
        rw [hnext] at htail
        cases htail
        rw [size_nil] at hsize
        omega
      | some q =>
        rw [hnext] at htail
        have hother : ∀ a ∈ l, (m.set b (shrinkCell shrink c)).cell a = m.cell a := by
          intro a ha
          apply cell_set_of_ne
          rintro rfl
          exact hnotMem ha
        have hlens : ∀ a ∈ l, (m.set b (shrinkCell shrink c)).lenOf a = m.lenOf a := by
          intro a ha
          rw [lenOf, hother a ha, lenOf]
        have hthread : Linked (m.set b (shrinkCell shrink c)).nextOf (some q) l := by
          rw [nextOf_set]
          exact htail.update hnotMem _
        have hfuel' : l.length ≤ fuel := Nat.le_of_succ_le_succ hfuel
        obtain ⟨l₁, r, l₂, d, rem, rfl, hr, hloop, hrem, hsplit, hpos⟩ := ih hthread
          (fun a ha => by rw [hother a ha]; exact hlive a (List.mem_cons_of_mem b ha))
          (by rw [size_congr hlens, hsub]; omega) hfuel'
        refine ⟨b :: l₁, r, l₂, d, rem, rfl, ?_, ?_, hrem, ?_, ?_⟩
        · rw [hother r (by simp)] at hr
          exact hr
        · have hnot₁ : b ∉ l₁ := fun hmem => hnotMem (List.mem_append_left _ hmem)
          rw [← mapCells_set hp hnot₁, ← hloop]
          rw [shrinkCell, hnext]
          rfl
        · rw [size_congr (fun a ha => hlens a (List.mem_append_left _ ha)), hsub] at hsplit
          rw [size_cons, lenOf_eq hp]
          omega
        · intro _
          cases l₁ with
          | nil =>
            rw [size_nil] at hsplit
            omega
          | cons a l₁ => exact hpos (List.cons_ne_nil a l₁)
    · rw [if_neg hmore]
      refine ⟨[], b, l, c, remLen, rfl, hp, rfl, UInt16.not_lt.mp hmore, ?_, fun h => absurd rfl h⟩
      rw [size_nil, Nat.zero_add]

namespace Sound

/-- The state that `pbuf_realloc` leaves before the rest of the chain is given back. -/
def shrunk (m : PbufPool n) (l₁ : List (Fin n)) (q : Fin n) (c : PbufCell n)
    (shrink rem : UInt16) : PbufPool n :=
  (m.mapCells l₁ (shrinkCell shrink)).set q { c with len := rem, totLen := rem, next := none }

lemma nextOf_shrinkCell (m : PbufPool n) (l₁ : List (Fin n)) (shrink : UInt16) :
    (m.mapCells l₁ (shrinkCell shrink)).nextOf = m.nextOf := by
  funext a
  by_cases ha : a ∈ l₁
  · rw [nextOf, cell_mapCells_of_mem ha, nextOf]
    cases m.cell a with
    | none => rfl
    | some c => rfl
  · rw [nextOf, cell_mapCells_of_notMem ha, nextOf]

/-- The kept part of the chain has the new length; the cut link is a reference that is held. -/
lemma shrunk_sound (h : m.Sound held) (hp : m.cell p = some c') (hhead : IsHead m.nextOf p)
    {l₁ l₂ : List (Fin n)} (hl : Linked m.nextOf (some p) (l₁ ++ q :: l₂)) (hq : m.cell q = some c)
    {newLen rem : UInt16} (hrem : rem ≤ c.len) (hsplit : newLen.toNat = m.size l₁ + rem.toNat) :
    (shrunk m l₁ q c (c'.totLen - newLen) rem).Sound (c.next.elim held (· ::ₘ held)) := by
  set shrink := c'.totLen - newLen with hshrink
  have hlive : ∀ a ∈ l₁, ∃ c, m.cell a = some c := fun a ha =>
    h.toOwned.thread_live hl hp (List.mem_append_left _ ha)
  have hq₁ : q ∉ l₁ := by
    intro hmem
    exact (List.nodup_append.mp hl.nodup).2.2 q hmem q (List.mem_cons_self ..) rfl
  have hcellq : (m.mapCells l₁ (shrinkCell shrink)).cell q = some c :=
    (cell_mapCells_of_notMem hq₁).trans hq
  have howned₁ : (m.mapCells l₁ (shrinkCell shrink)).Owned held := by
    apply h.toOwned.mapCells (f := shrinkCell shrink) (fun _ => rfl)
    · rw [nextOf_shrinkCell]
      exact h.threaded
    · rw [nextOf_shrinkCell]
      exact h.counted
  have htot : m.totOf (some p) = UInt16.ofNat (m.size l₁) + c.totLen := by
    obtain ⟨r, hr, htot⟩ := h.totOf_append hl hlive
    cases hr with
    | cons hr => rw [htot, totOf_some hq]
  have hnew : c.totLen - shrink = rem := by
    have hsum : newLen = UInt16.ofNat (m.size l₁) + rem := by
      rw [← UInt16.ofNat_toNat (x := newLen), hsplit, UInt16.ofNat_add, UInt16.ofNat_toNat]
    rw [totOf_some hp] at htot
    rw [hshrink, htot, hsum]
    grind
  constructor
  · cases hnext : c.next with
    | none =>
      apply howned₁.set_fields hcellq
      · exact hnext.symm
      · rfl
    | some r => exact howned₁.cut hcellq hnext rfl rfl
  · intro a d ha
    unfold shrunk at ha ⊢
    by_cases haq : a = q
    · rw [haq, cell_set, Option.some.injEq] at ha
      rw [← ha]
      exact (UInt16.add_zero _).symm
    · rw [cell_set_of_ne haq] at ha
      by_cases hal : a ∈ l₁
      · rw [cell_mapCells_of_mem hal] at ha
        obtain ⟨d, hd, rfl⟩ := Option.map_eq_some_iff.mp ha
        have htotal := h.totals a d hd
        obtain ⟨l₃, l₄, hl₃⟩ := List.append_of_mem hal
        rw [hl₃, List.append_assoc, List.cons_append] at hl
        have hbehind := hl.behind
        rw [nextOf_eq hd] at hbehind
        cases hb : d.next with
        | none =>
          rw [hb] at hbehind
          generalize hrest : l₄ ++ q :: l₂ = rest at hbehind
          cases hbehind
          simp at hrest
        | some b =>
          rw [hb] at htotal hbehind
          obtain ⟨l', hl', -⟩ := hbehind.eq_cons
          rw [shrinkCell, hb]
          by_cases hbq : b = q
          · subst hbq
            rw [totOf_some hq] at htotal
            rw [totOf_some (cell_set _ _ _), htotal, ← hnew]
            grind
          · have hbl : b ∈ l₁ := by
              cases l₄ with
              | nil =>
                rw [List.nil_append, List.cons.injEq] at hl'
                exact absurd hl'.1.symm hbq
              | cons e l₄ =>
                rw [List.cons_append, List.cons.injEq] at hl'
                rw [hl₃, ← hl'.1]
                simp
            obtain ⟨e, he⟩ := hlive b hbl
            have he' : ((m.mapCells l₁ (shrinkCell shrink)).set q
                { c with len := rem, totLen := rem, next := none }).cell b =
                  some (shrinkCell shrink e) := by
              rw [cell_set_of_ne hbq, cell_mapCells_of_mem hbl, he, Option.map_some]
            rw [totOf_some he] at htotal
            rw [totOf_some he', htotal, shrinkCell]
            grind
      · rw [cell_mapCells_of_notMem hal] at ha
        rw [h.totals a d ha]
        congr 1
        symm
        apply totOf_congr
        intro b hb
        have hbl : b ∉ l₁ ++ q :: l₂ ∨ a ∈ q :: l₂ := by
          by_cases hmem : a ∈ l₁ ++ q :: l₂
          · right
            exact (List.mem_append.mp hmem).resolve_left hal
          · left
            exact h.threaded.not_mem_next hhead hl hmem ((nextOf_eq ha).trans hb)
        have hb₁ : b ≠ q ∧ b ∉ l₁ := by
          rcases hbl with hbl | hal₂
          · rw [List.mem_append, List.mem_cons, not_or, not_or] at hbl
            exact ⟨hbl.2.1, hbl.1⟩
          · have hal₂' : a ∈ l₂ := List.mem_of_ne_of_mem haq hal₂
            have hbl₂ : b ∈ l₂ := hl.behind.next_mem hal₂' ((nextOf_eq ha).trans hb)
            have hnodup := List.nodup_append.mp hl.nodup
            constructor
            · rintro rfl
              exact (List.nodup_cons.mp hnodup.2.1).1 hbl₂
            · intro hmem
              exact hnodup.2.2 b hmem b (List.mem_cons_of_mem q hbl₂) rfl
        rw [cell_set_of_ne hb₁.1, cell_mapCells_of_notMem hb₁.2]
  · intro a d ha
    unfold shrunk at ha
    by_cases haq : a = q
    · rw [haq, cell_set, Option.some.injEq] at ha
      rw [← ha]
      have hwindow := h.window q c hq
      have hle := UInt16.le_iff_toNat_le.mp hrem
      exact le_trans (Nat.add_le_add_left hle _) hwindow
    · rw [cell_set_of_ne haq] at ha
      by_cases hal : a ∈ l₁
      · rw [cell_mapCells_of_mem hal] at ha
        obtain ⟨d, hd, rfl⟩ := Option.map_eq_some_iff.mp ha
        exact h.window a d hd
      · rw [cell_mapCells_of_notMem hal] at ha
        exact h.window a d ha

/-- `pbuf_realloc` cuts a chain to a length that is not longer, and gives back the rest. -/
theorem realloc (h : m.Sound held) (hp : m.cell p = some c') (hhead : IsHead m.nextOf p)
    (hl : Linked m.nextOf (some p) l) {newLen : UInt16} (hless : ¬c'.totLen ≤ newLen) :
    ∃ m' l₁ q l₂ c rem, m.pbufRealloc p newLen = some m' ∧ m'.Sound held ∧
      l = l₁ ++ q :: l₂ ∧ m.cell q = some c ∧ rem ≤ c.len ∧
      newLen.toNat = m.size l₁ + rem.toNat ∧ (l₁ ≠ [] → 0 < rem.toNat) ∧
      Recounted (shrunk m l₁ q c (c'.totLen - newLen) rem) m' l₂ := by
  have hlive : ∀ a ∈ l, ∃ c, m.cell a = some c := fun a ha => h.toOwned.thread_live hl hp ha
  have hsize : newLen.toNat ≤ m.size l := by
    have hlt := UInt16.lt_iff_toNat_lt.mp (UInt16.not_le.mp hless)
    exact hlt.le.trans (h.totLen_le_size hp hl)
  obtain ⟨l₁, q, l₂, c, rem, rfl, hq, hloop, hrem, hsplit, hpos⟩ :=
    pbufReallocLoop_eq (c'.totLen - newLen) hl hlive hsize (Owned.thread_length_le hl)
  have hsound := h.shrunk_sound hp hhead hl hq hrem hsplit
  have hq₁ : q ∉ l₁ := by
    intro hmem
    exact (List.nodup_append.mp hl.nodup).2.2 q hmem q (List.mem_cons_self ..) rfl
  have hcellq : (m.mapCells l₁ (shrinkCell (c'.totLen - newLen))).cell q = some c :=
    (cell_mapCells_of_notMem hq₁).trans hq
  rw [pbufRealloc, hp, Option.bind_eq_bind, Option.bind_some, if_neg hless, hloop]
  simp only [Option.bind_eq_bind, Option.bind_some, hcellq]
  cases hnext : c.next with
  | none =>
    rw [hnext] at hsound
    have hl₂ : l₂ = [] := by
      have hbehind := hl.behind
      rw [nextOf_eq hq, hnext] at hbehind
      cases hbehind
      rfl
    refine ⟨shrunk m l₁ q c (c'.totLen - newLen) rem, l₁, q, l₂, c, rem, ?_, hsound, rfl, hq, hrem,
      hsplit, hpos, ?_⟩
    · rfl
    · rw [hl₂]
      exact Recounted.refl _
  | some r =>
    rw [hnext] at hsound
    have hbehind : Linked m.nextOf (some r) l₂ := by
      have hbehind := hl.behind
      rw [nextOf_eq hq, hnext] at hbehind
      exact hbehind
    have hql₂ : q ∉ l₂ := Owned.notMem_behind hq (hnext ▸ hbehind)
    have hthread : Linked (shrunk m l₁ q c (c'.totLen - newLen) rem).nextOf (some r) l₂ := by
      rw [shrunk, nextOf_set, nextOf_shrinkCell]
      exact hbehind.update hql₂ none
    obtain ⟨m', count, hfree, hsound', hrecounted⟩ := Sound.free hsound hthread
    refine ⟨m', l₁, q, l₂, c, rem, ?_, hsound', rfl, hq, hrem, hsplit, hpos, hrecounted⟩
    -- the source frees the rest before it clears the link
    have hbefore := pbufFreeLoop_set hthread hql₂ { c with len := rem, totLen := rem } n 0
    rw [shrunk, set_set] at hbefore
    change pbufFree _ r = Option.map _ (pbufFree (shrunk m l₁ q c (c'.totLen - newLen) rem) r) at hbefore
    rw [hfree, Option.map_some] at hbefore
    simp only [hnext] at hbefore
    simp only [hbefore, Option.bind_some, Option.pure_def]
    have hcell' : m'.cell q = some { c with len := rem, totLen := rem, next := none } := by
      rw [hrecounted.outside q hql₂, shrunk, cell_set]
    rw [set_set, set_eq_self hcell']

end Sound

/-- `d` bytes at the front of the payload are hidden. -/
def hideCell (d : ℕ) (c : PbufCell n) : PbufCell n :=
  { c with
    payload := c.payload + d
    len := c.len - UInt16.ofNat d
    totLen := c.totLen - UInt16.ofNat d }

/-- `d` bytes in front of the payload are revealed. -/
def revealCell (d : ℕ) (c : PbufCell n) : PbufCell n :=
  { c with
    payload := c.payload - d
    len := c.len + UInt16.ofNat d
    totLen := c.totLen + UInt16.ofNat d }

lemma hideCell_zero (c : PbufCell n) : hideCell 0 c = c := by simp [hideCell]

lemma revealCell_zero (c : PbufCell n) : revealCell 0 c = c := by simp [revealCell]

/-- What is hidden of an element is headroom of the piece, and the other way round. -/
lemma piece_hide (hp : m.cell p = some c) (hp' : m'.cell p = some (hideCell d c))
    (hd : d ≤ c.len.toNat) (hmemory : m'.memory p = m.memory p) :
    m'.piece p = (m.piece p).hide d := by
  have hnat : (UInt16.ofNat d).toNat = d :=
    UInt16.toNat_ofNat_of_lt' (lt_of_le_of_lt hd c.len.toNat_lt)
  have hlen : (hideCell d c).len.toNat = c.len.toNat - d := by
    change (c.len - UInt16.ofNat d).toNat = _
    rw [UInt16.toNat_sub_of_le _ _ (UInt16.le_iff_toNat_le.mpr (by rw [hnat]; exact hd)), hnat]
  have hsegment : m'.segment p = (m.segment p).drop d := by
    rw [segment_eq hp', segment_eq hp, hlen, hmemory, List.drop_take, List.drop_drop]
    rfl
  have hheadroom : m'.headroom p = m.headroom p ++ (m.segment p).take d := by
    rw [headroom_eq hp', headroom_eq hp, segment_eq hp, hmemory, List.take_take, min_eq_left hd,
      ← List.take_add]
    rfl
  rw [piece, piece, PacketPiece.hide, hsegment, hheadroom]

lemma piece_reveal (hp : m.cell p = some c) (hp' : m'.cell p = some (revealCell d c))
    (hd : d ≤ c.payload) (hwindow : c.payload + c.len.toNat ≤ pbufPoolBufsize)
    (hmemory : m'.memory p = m.memory p) : m'.piece p = (m.piece p).reveal d := by
  have hlength : (m.headroom p).length = c.payload := by
    rw [headroom_eq hp, List.length_take, Vector.length_toList]
    omega
  have hlen : (revealCell d c).len.toNat = d + c.len.toNat := by
    change (c.len + UInt16.ofNat d).toNat = _
    rw [pbufPoolBufsize] at hwindow
    rw [UInt16.toNat_add, UInt16.toNat_ofNat', Nat.add_mod_mod, Nat.mod_eq_of_lt (by omega),
      Nat.add_comm]
  have hback : c.payload - d + d = c.payload := Nat.sub_add_cancel hd
  have hreveal : (revealCell d c).payload = c.payload - d := rfl
  have hheadroom : m'.headroom p = (m.headroom p).take (c.payload - d) := by
    rw [headroom_eq hp', headroom_eq hp, hmemory, List.take_take, min_eq_left (Nat.sub_le _ _),
      hreveal]
  have hsegment : m'.segment p = (m.headroom p).drop (c.payload - d) ++ m.segment p := by
    rw [segment_eq hp', segment_eq hp, headroom_eq hp, hmemory, hlen, hreveal, List.take_add,
      List.drop_drop, hback, List.drop_take, Nat.sub_sub_self hd]
  rw [piece, piece, PacketPiece.reveal, hlength, hsegment, hheadroom]

lemma pbufRemoveHeader_eq (hp : m.cell p = some c) (d : ℕ) :
    m.pbufRemoveHeader p d =
      if d ≤ c.len.toNat then some (m.set p (hideCell d c), 0)
      else if 0xffff < d then some (m, 1)
      else none := by
  have hlt := c.len.toNat_lt
  unfold pbufRemoveHeader
  by_cases hbig : 0xffff < d
  · rw [if_pos hbig, if_neg (by omega), if_pos hbig]
  · rw [if_neg hbig]
    by_cases hzero : d = 0
    · rw [if_pos hzero, hzero, if_pos (Nat.zero_le _), hideCell_zero, set_eq_self hp]
    · have hnat : (UInt16.ofNat d).toNat = d := UInt16.toNat_ofNat_of_lt' (by
        change d < 65536
        omega)
      rw [if_neg hzero]
      simp only [hp, Option.bind_eq_bind, Option.bind_some]
      by_cases hle : d ≤ c.len.toNat
      · have hroom : ¬c.len < UInt16.ofNat d := by
          rw [UInt16.lt_iff_toNat_lt, hnat]
          omega
        rw [if_neg hroom, if_pos hle]
        rfl
      · have hroom : c.len < UInt16.ofNat d := by
          rw [UInt16.lt_iff_toNat_lt, hnat]
          omega
        rw [if_pos hroom, if_neg hle, if_neg hbig]

lemma pbufAddHeader_eq (hp : m.cell p = some c) (hpayload : c.payload ≤ pbufPoolBufsize) (d : ℕ) :
    m.pbufAddHeader p d =
      some (if d ≤ c.payload ∧ d + c.totLen.toNat < 2 ^ 16 then (m.set p (revealCell d c), 0)
        else (m, 1)) := by
  have hlt := c.totLen.toNat_lt
  unfold pbufPoolBufsize at hpayload
  unfold pbufAddHeader
  by_cases hbig : 0xffff < d
  · rw [if_pos hbig, if_neg (by omega)]
  · rw [if_neg hbig]
    by_cases hzero : d = 0
    · rw [if_pos hzero, hzero, if_pos ⟨Nat.zero_le _, by omega⟩, revealCell_zero, set_eq_self hp]
    · have hnat : (UInt16.ofNat d).toNat = d := UInt16.toNat_ofNat_of_lt' (by
        change d < 65536
        omega)
      have hwrap : UInt16.ofNat d + c.totLen < UInt16.ofNat d ↔ 2 ^ 16 ≤ d + c.totLen.toNat := by
        rw [UInt16.lt_iff_toNat_lt, UInt16.toNat_add, hnat]
        omega
      rw [if_neg hzero]
      simp only [hp, Option.bind_eq_bind, Option.bind_some]
      by_cases hover : UInt16.ofNat d + c.totLen < UInt16.ofNat d
      · have hbound := hwrap.mp hover
        rw [if_pos hover, if_neg (by omega)]
        rfl
      · have hbound := hwrap.not.mp hover
        rw [if_neg hover]
        by_cases hroom : c.payload < d
        · rw [if_pos hroom, if_neg (by omega)]
          rfl
        · rw [if_neg hroom, if_pos (by omega)]
          rfl

namespace Sound

lemma hide (h : m.Sound held) (hp : m.cell p = some c) (hhead : IsHead m.nextOf p) {d : ℕ}
    (hd : d ≤ c.len.toNat) : (m.set p (hideCell d c)).Sound held := by
  have hlt := c.len.toNat_lt
  have htotal := h.totals p c hp
  have hwindow := h.window p c hp
  have hnat : (UInt16.ofNat d).toNat = d := UInt16.toNat_ofNat_of_lt' (lt_of_le_of_lt hd hlt)
  apply h.setFields hp hhead
  · rfl
  · rfl
  · change c.totLen - UInt16.ofNat d = c.len - UInt16.ofNat d + _
    rw [htotal]
    grind
  · change c.payload + d + (c.len - UInt16.ofNat d).toNat ≤ _
    rw [UInt16.toNat_sub_of_le _ _ (UInt16.le_iff_toNat_le.mpr (by rw [hnat]; exact hd)), hnat]
    omega

lemma reveal (h : m.Sound held) (hp : m.cell p = some c) (hhead : IsHead m.nextOf p) {d : ℕ}
    (hd : d ≤ c.payload) : (m.set p (revealCell d c)).Sound held := by
  have hlt := c.len.toNat_lt
  have htotal := h.totals p c hp
  have hwindow := h.window p c hp
  unfold pbufPoolBufsize at hwindow
  have hnat : (UInt16.ofNat d).toNat = d := UInt16.toNat_ofNat_of_lt' (by
    change d < 65536
    omega)
  apply h.setFields hp hhead
  · rfl
  · rfl
  · change c.totLen + UInt16.ofNat d = c.len + UInt16.ofNat d + _
    rw [htotal]
    grind
  · change c.payload - d + (c.len + UInt16.ofNat d).toNat ≤ _
    rw [UInt16.toNat_add, hnat, pbufPoolBufsize]
    omega

/-- The head of a chain that only its holder refers to is given back, and the rest is held. -/
lemma dropHead (h : m.Sound (p ::ₘ held)) (hp : m.cell p = some c) (hone : c.ref = 1) :
    ∃ count, (m.set p { c with next := none }).pbufFree p = some (m.mempFree p, count) ∧
      (m.mempFree p).Sound (c.next.elim held (· ::ₘ held)) := by
  have hsingle : Linked (m.set p { c with next := none }).nextOf (some p) [p] := by
    apply Linked.cons
    rw [nextOf_set, Function.update_self]
    exact Linked.nil
  have hsole : ∀ a ∈ [p], (m.set p { c with next := none }).refOf a = 1 := by
    intro a ha
    rw [List.mem_singleton.mp ha, refOf_set, Function.update_self, hone]
    rfl
  have hfree := pbufFreeLoop_sole hsingle hsole (Owned.thread_length_le hsingle) 0
  have hresult : { m.set p { c with next := none } with
      cell := fun a => if a ∈ [p] then none else (m.set p { c with next := none }).cell a
      tab := [p].reverse ++ (m.set p { c with next := none }).tab } = m.mempFree p := by
    have hcell : (fun a => if a ∈ [p] then none else (m.set p { c with next := none }).cell a) =
        (m.mempFree p).cell := by
      funext a
      by_cases hap : a = p
      · rw [hap, cell_mempFree, if_pos (List.mem_singleton_self p)]
      · rw [cell_mempFree_of_ne hap, if_neg (by simpa using hap), cell_set_of_ne hap]
    rw [hcell]
    rfl
  refine ⟨_, hfree.trans (by rw [hresult]), ?_⟩
  apply h.recounted (h.toOwned.drop hp hone) (l := [p])
  refine ⟨?_, ?_, rfl⟩
  · intro a c' ha
    have hap : a ≠ p := by
      rintro rfl
      rw [cell_mempFree] at ha
      cases ha
    rw [cell_mempFree_of_ne hap] at ha
    exact ⟨c', ha, rfl⟩
  · intro a ha
    rw [cell_mempFree_of_ne (by simpa using ha)]

/-- `pbuf_free_header` on a chain that only its holder refers to gives back the `pbuf`s that are
used up and hides the rest of the header; the caller holds what is left. -/
theorem freeHeaderLoop {p : Option (Fin n)} (h : m.Sound (p.elim held (· ::ₘ held)))
    (hl : Linked m.nextOf p l) (hsole : ∀ a ∈ l, m.refOf a = 1) (size : UInt16) {fuel : ℕ}
    (hfuel : l.length ≤ fuel) :
    ∃ m' p' l₁ l₂, pbufFreeHeaderLoop fuel m p size = some (m', p') ∧
      m'.Sound (p'.elim held (· ::ₘ held)) ∧ l = l₁ ++ l₂ ∧ Linked m'.nextOf p' l₂ ∧
      m'.memory = m.memory ∧ (∀ a ∉ l, m'.cell a = m.cell a) ∧ (∀ a ∈ l₁, m'.cell a = none) ∧
      l₂.map m'.piece = dropPieces size.toNat (l.map m.piece) ∧
      (p' = none ∨ ∃ q c d l₃, p' = some q ∧ l₂ = q :: l₃ ∧ m.cell q = some c ∧ d ≤ c.len.toNat ∧
        m'.cell q = some (hideCell d c) ∧ ∀ a ∈ l₃, m'.cell a = m.cell a) := by
  induction fuel generalizing m p l size with
  | zero =>
    obtain rfl : l = [] := List.eq_nil_of_length_eq_zero (Nat.le_zero.mp hfuel)
    cases hl
    exact ⟨m, none, [], [], by rw [pbufFreeHeaderLoop], h, rfl, Linked.nil, rfl, fun _ _ => rfl,
      List.forall_mem_nil _, rfl, .inl rfl⟩
  | succ fuel ih =>
    cases p with
    | none =>
      cases hl
      exact ⟨m, none, [], [], by rw [pbufFreeHeaderLoop], h, rfl, Linked.nil, rfl, fun _ _ => rfl,
        List.forall_mem_nil _, rfl, .inl rfl⟩
    | some p =>
      obtain ⟨l, rfl, htail⟩ := hl.eq_cons
      obtain ⟨c, hp⟩ := h.toOwned.exists_cell (Multiset.mem_cons_self p held)
      have hone := hsole p (List.mem_cons_self ..)
      have hhead := (h.counted.sole hone).1
      rw [pbufFreeHeaderLoop]
      by_cases hdone : size = 0
      · rw [if_pos hdone, hdone]
        refine ⟨m, some p, [], p :: l, rfl, h, rfl, hl, rfl, fun _ _ => rfl, List.forall_mem_nil _,
          ?_, .inr ?_⟩
        · rw [List.map_cons, UInt16.toNat_zero, dropPieces, if_pos rfl]
        · exact ⟨p, c, 0, l, rfl, rfl, hp, Nat.zero_le _, by rw [hideCell_zero, hp],
            fun _ _ => rfl⟩
      · have hpos : size.toNat ≠ 0 := by
          intro hzero
          exact hdone (UInt16.toNat_inj.mp hzero)
        have hlength : (m.piece p).bytes.length = c.len.toNat := by
          rw [← lenOf_eq hp]
          exact h.length_segment p
        rw [if_neg hdone, hp, Option.bind_eq_bind, Option.bind_some]
        by_cases hall : c.len ≤ size
        · have hrest : (size - c.len).toNat = size.toNat - c.len.toNat :=
            UInt16.toNat_sub_of_le _ _ hall
          have hle := UInt16.le_iff_toNat_le.mp hall
          rw [refOf_eq hp] at hone
          obtain ⟨count, hfree, hsound⟩ := h.dropHead hp (UInt8.toNat_inj.mp hone)
          have hnotMem : p ∉ l := (List.nodup_cons.mp hl.nodup).1
          have hother : ∀ a ∈ l, (m.mempFree p).cell a = m.cell a := by
            intro a ha
            apply cell_mempFree_of_ne
            rintro rfl
            exact hnotMem ha
          have hthread : Linked (m.mempFree p).nextOf c.next l := by
            rw [nextOf_mempFree, ← nextOf_eq hp]
            exact htail.update hnotMem none
          have hsame : l.map (m.mempFree p).piece = l.map m.piece :=
            map_piece_congr hother (fun _ _ => rfl)
          obtain ⟨m', p', l₁, l₂, hloop, hsound', hsplit, hthread', hmemory, houtside, hgone,
            hpieces, hend⟩ := ih hsound hthread
              (fun a ha => by
                rw [refOf, hother a ha]
                exact hsole a (List.mem_cons_of_mem p ha))
              (size - c.len) (Nat.le_of_succ_le_succ hfuel)
          rw [if_pos hall, hfree]
          refine ⟨m', p', p :: l₁, l₂, hloop, hsound', by rw [hsplit, List.cons_append], hthread',
            hmemory, ?_, ?_, ?_, ?_⟩
          · intro a ha
            rw [List.mem_cons, not_or] at ha
            rw [houtside a ha.2, cell_mempFree_of_ne ha.1]
          · rintro a (_ | ⟨_, ha⟩)
            · rw [houtside p hnotMem, cell_mempFree]
            · exact hgone a ha
          · rw [List.map_cons, dropPieces, if_neg hpos, hlength, if_pos hle, ← hrest, ← hsame, hpieces]
          · rcases hend with hnone | ⟨q, d, k, l₃, hq, hl₂, hcell, hk, hcell', hl₃⟩
            · exact .inl hnone
            · right
              refine ⟨q, d, k, l₃, hq, hl₂, ?_, hk, hcell', ?_⟩
              · rw [← hother q (by rw [hsplit, hl₂]; simp)]
                exact hcell
              · intro a ha
                rw [hl₃ a ha, hother a (by rw [hsplit, hl₂]; simp [ha])]
        · have hlt := UInt16.lt_iff_toNat_lt.mp (UInt16.not_le.mp hall)
          have hnat : UInt16.ofNat size.toNat = size := UInt16.ofNat_toNat
          rw [if_neg hall, pbufRemoveHeader_eq hp, if_pos hlt.le]
          have hother : ∀ a ∈ l, (m.set p (hideCell size.toNat c)).cell a = m.cell a := by
            intro a ha
            apply cell_set_of_ne
            rintro rfl
            exact (List.nodup_cons.mp hl.nodup).1 ha
          refine ⟨m.set p (hideCell size.toNat c), some p, [], p :: l, rfl, h.hide hp hhead hlt.le, rfl,
            ?_, rfl, ?_, List.forall_mem_nil _, ?_,
            .inr ⟨p, c, size.toNat, l, rfl, rfl, hp, hlt.le, cell_set _ _ _, hother⟩⟩
          · have hsame : (m.set p (hideCell size.toNat c)).nextOf = m.nextOf := by
              rw [nextOf_set, hideCell, update_nextOf hp]
            rw [hsame]
            exact hl
          · intro a ha
            rw [List.mem_cons, not_or] at ha
            rw [cell_set_of_ne ha.1]
          · rw [List.map_cons, List.map_cons, dropPieces, if_neg hpos, hlength,
              if_neg (Nat.not_le.mpr hlt), piece_hide hp (cell_set _ _ _) hlt.le rfl,
              map_piece_congr hother (fun _ _ => rfl)]

end Sound

end PbufPool

end EthoSlip
