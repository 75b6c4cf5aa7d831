import EthoSlip.Lib.LinkedCells
import EthoSlip.Model.PbufHeap

/-!
# Who owns the elements of the pool

The reference count of a `pbuf` is the number of references that the callers hold to it and of
`next` pointers to it; the elements without one are the free ones. `pbuf_free` takes a reference
that is held and gives back what is left without one.
-/

namespace EthoSlip
open Lib

namespace PbufPool

variable {n : ℕ} {m m' : PbufPool n} {held held' : Multiset (Fin n)} {a p q : Fin n}
  {c c' : PbufCell n}

def nextOf (m : PbufPool n) (a : Fin n) : Option (Fin n) := (m.cell a).bind PbufCell.next

def refOf (m : PbufPool n) (a : Fin n) : ℕ := ((m.cell a).map (fun c => c.ref.toNat)).getD 0

lemma nextOf_eq (h : m.cell a = some c) : m.nextOf a = c.next := by
  rw [nextOf, h, Option.bind_some]

lemma refOf_eq (h : m.cell a = some c) : m.refOf a = c.ref.toNat := by
  rw [refOf, h, Option.map_some, Option.getD_some]

lemma nextOf_free (h : m.cell a = none) : m.nextOf a = none := by
  rw [nextOf, h, Option.bind_none]

lemma refOf_free (h : m.cell a = none) : m.refOf a = 0 := by
  rw [refOf, h, Option.map_none, Option.getD_none]

@[simp] lemma cell_set (m : PbufPool n) (p : Fin n) (c : PbufCell n) :
    (m.set p c).cell p = some c := Function.update_self ..

lemma cell_set_of_ne (h : a ≠ p) (c : PbufCell n) : (m.set p c).cell a = m.cell a :=
  Function.update_of_ne h _ _

@[simp] lemma cell_mempFree (m : PbufPool n) (p : Fin n) : (m.mempFree p).cell p = none :=
  Function.update_self ..

lemma cell_mempFree_of_ne (h : a ≠ p) : (m.mempFree p).cell a = m.cell a :=
  Function.update_of_ne h _ _

lemma set_set (m : PbufPool n) (p : Fin n) (c c' : PbufCell n) :
    (m.set p c).set p c' = m.set p c' := by
  rw [set, set, set, Function.update_idem]

@[simp] lemma nextOf_set (m : PbufPool n) (p : Fin n) (c : PbufCell n) :
    (m.set p c).nextOf = Function.update m.nextOf p c.next := by
  funext a
  by_cases hap : a = p
  · rw [hap, nextOf_eq (cell_set m p c), Function.update_self]
  · rw [nextOf, cell_set_of_ne hap, Function.update_of_ne hap, nextOf]

@[simp] lemma refOf_set (m : PbufPool n) (p : Fin n) (c : PbufCell n) :
    (m.set p c).refOf = Function.update m.refOf p c.ref.toNat := by
  funext a
  by_cases hap : a = p
  · rw [hap, refOf_eq (cell_set m p c), Function.update_self]
  · rw [refOf, cell_set_of_ne hap, Function.update_of_ne hap, refOf]

@[simp] lemma nextOf_mempFree (m : PbufPool n) (p : Fin n) :
    (m.mempFree p).nextOf = Function.update m.nextOf p none := by
  funext a
  by_cases hap : a = p
  · rw [hap, nextOf_free (cell_mempFree m p), Function.update_self]
  · rw [nextOf, cell_mempFree_of_ne hap, Function.update_of_ne hap, nextOf]

@[simp] lemma refOf_mempFree (m : PbufPool n) (p : Fin n) :
    (m.mempFree p).refOf = Function.update m.refOf p 0 := by
  funext a
  by_cases hap : a = p
  · rw [hap, refOf_free (cell_mempFree m p), Function.update_self]
  · rw [refOf, cell_mempFree_of_ne hap, Function.update_of_ne hap, refOf]

lemma update_nextOf (h : m.cell p = some c) : Function.update m.nextOf p c.next = m.nextOf := by
  rw [← nextOf_eq h, Function.update_eq_self]

lemma update_refOf (h : m.cell p = some c) :
    Function.update m.refOf p c.ref.toNat = m.refOf := by
  rw [← refOf_eq h, Function.update_eq_self]

/-- `held` are the references that the callers hold. -/
structure Owned (m : PbufPool n) (held : Multiset (Fin n)) : Prop where
  tab_nodup : m.tab.Nodup
  mem_tab : ∀ a, a ∈ m.tab ↔ m.cell a = none
  live : ∀ a, m.refOf a = 0 → m.cell a = none
  threaded : Threaded m.nextOf
  counted : Counted m.nextOf m.refOf held

lemma init_owned (memory : Fin n → Vector Byte pbufPoolBufsize) :
    (init memory).Owned 0 where
  tab_nodup := List.nodup_reverse.mpr (List.nodup_finRange n)
  mem_tab a := iff_of_true (List.mem_reverse.mpr (List.mem_finRange a)) rfl
  live _ _ := rfl
  threaded := {
    unshared := fun _ _ _ h => by cases h
    ends := fun a => ⟨[a], .cons .nil⟩ }
  counted a := by
    have hdegree : indegree (init memory).nextOf a = 0 := by
      apply Nat.eq_zero_of_not_pos
      intro hpos
      obtain ⟨b, hb⟩ := exists_of_indegree_pos hpos
      cases hb
    rw [hdegree]
    rfl

namespace Owned

lemma cell_ne_none_of_ref (h : 0 < m.refOf p) : ∃ c, m.cell p = some c := by
  apply Option.ne_none_iff_exists'.mp
  intro hfree
  rw [refOf_free hfree] at h
  exact absurd h (lt_irrefl 0)

lemma exists_cell (h : m.Owned held) (hp : p ∈ held) : ∃ c, m.cell p = some c := by
  apply cell_ne_none_of_ref
  rw [h.counted p]
  exact Nat.add_pos_left (Multiset.count_pos.mpr hp) _

lemma exists_next (h : m.Owned held) (hp : m.cell p = some c) (hq : c.next = some q) :
    ∃ c', m.cell q = some c' := by
  apply cell_ne_none_of_ref
  rw [h.counted q]
  exact Nat.add_pos_right _ (indegree_pos ((nextOf_eq hp).trans hq))

lemma exists_thread (h : m.Owned held) (p : Option (Fin n)) : ∃ l, Linked m.nextOf p l := by
  cases p with
  | none => exact ⟨[], .nil⟩
  | some p => exact h.threaded.ends p

lemma ref_ne_zero (h : m.Owned held) (hp : m.cell p = some c) : c.ref ≠ 0 := by
  intro hzero
  have hfree := h.live p (by rw [refOf_eq hp, hzero]; rfl)
  rw [hfree] at hp
  cases hp

/-- No walk along a thread is longer than the pool. -/
lemma thread_length_le {p : Option (Fin n)} {l : List (Fin n)} (hl : Linked m.nextOf p l) :
    l.length ≤ n := by
  have hcard := hl.nodup.length_le_card
  rw [Fintype.card_fin] at hcard
  exact hcard

/-- Live elements stay live, and the free ones free. -/
lemma rebuild (h : m.Owned held) (htab : m'.tab = m.tab)
    (hcell : ∀ a, m'.cell a = none ↔ m.cell a = none)
    (hlive : ∀ a, m'.refOf a = 0 → m'.cell a = none) (hthreaded : Threaded m'.nextOf)
    (hcounted : Counted m'.nextOf m'.refOf held') : m'.Owned held' where
  tab_nodup := htab ▸ h.tab_nodup
  mem_tab a := by rw [htab, hcell, h.mem_tab]
  live := hlive
  threaded := hthreaded
  counted := hcounted

lemma set (h : m.Owned held) (hp : m.cell p = some c) (href : c'.ref ≠ 0)
    (hthreaded : Threaded (Function.update m.nextOf p c'.next))
    (hcounted : Counted (Function.update m.nextOf p c'.next)
      (Function.update m.refOf p c'.ref.toNat) held') : (m.set p c').Owned held' := by
  apply h.rebuild
  · rfl
  · intro a
    by_cases hap : a = p
    · rw [hap, cell_set, hp]
      simp
    · rw [cell_set_of_ne hap]
  · intro a hzero
    by_cases hap : a = p
    · rw [hap, refOf_set, Function.update_self] at hzero
      exact absurd (UInt8.toNat_inj.mp hzero) href
    · rw [refOf_set, Function.update_of_ne hap] at hzero
      rw [cell_set_of_ne hap, h.live a hzero]
  · rw [nextOf_set]
    exact hthreaded
  · rw [nextOf_set, refOf_set]
    exact hcounted

/-- Neither the link nor the count of an element changes. -/
lemma set_fields (h : m.Owned held) (hp : m.cell p = some c) (hnext : c'.next = c.next)
    (href : c'.ref = c.ref) : (m.set p c').Owned held := by
  apply h.set hp
  · rw [href]
    exact h.ref_ne_zero hp
  · rw [hnext, update_nextOf hp]
    exact h.threaded
  · rw [hnext, href, update_nextOf hp, update_refOf hp]
    exact h.counted

lemma share (h : m.Owned held) (hp : m.cell p = some c) (hroom : c.ref + 1 ≠ 0) :
    (m.set p { c with ref := c.ref + 1 }).Owned (p ::ₘ held) := by
  have hnat : (c.ref + 1).toNat = m.refOf p + 1 := by
    rw [refOf_eq hp]
    have hlt := c.ref.toNat_lt
    have hne : (c.ref + 1).toNat ≠ 0 := fun hzero => hroom (UInt8.toNat_inj.mp hzero)
    rw [UInt8.toNat_add] at hne ⊢
    change (c.ref.toNat + 1) % 256 ≠ 0 at hne
    change (c.ref.toNat + 1) % 256 = _
    omega
  apply h.set hp hroom
  · rw [update_nextOf hp]
    exact h.threaded
  · rw [update_nextOf hp, hnat]
    exact h.counted.share p

lemma release (h : m.Owned (p ::ₘ held)) (hp : m.cell p = some c) (hmore : c.ref - 1 ≠ 0) :
    (m.set p { c with ref := c.ref - 1 }).Owned held := by
  have hpos : 1 ≤ c.ref := by
    apply UInt8.le_iff_toNat_le.mpr
    apply Nat.one_le_iff_ne_zero.mpr
    intro hzero
    exact h.ref_ne_zero hp (UInt8.toNat_inj.mp hzero)
  have hnat : (c.ref - 1).toNat = m.refOf p - 1 := by
    rw [refOf_eq hp, UInt8.toNat_sub_of_le _ _ hpos]
    rfl
  apply h.set hp hmore
  · rw [update_nextOf hp]
    exact h.threaded
  · rw [update_nextOf hp, hnat]
    exact h.counted.release.2

/-- The last reference to an element is given back; its link becomes a reference that is held. -/
lemma drop (h : m.Owned (p ::ₘ held)) (hp : m.cell p = some c) (hlast : c.ref = 1) :
    (m.mempFree p).Owned (c.next.elim held (· ::ₘ held)) where
  tab_nodup := by
    apply List.nodup_cons.mpr
    refine ⟨?_, h.tab_nodup⟩
    rw [h.mem_tab, hp]
    simp
  mem_tab a := by
    change a ∈ p :: m.tab ↔ _
    by_cases hap : a = p
    · simp [hap]
    · rw [cell_mempFree_of_ne hap, ← h.mem_tab, List.mem_cons]
      simp [hap]
  live a := by
    by_cases hap : a = p
    · intro _
      rw [hap, cell_mempFree]
    · rw [refOf_mempFree, Function.update_of_ne hap, cell_mempFree_of_ne hap]
      exact h.live a
  threaded := by
    rw [nextOf_mempFree]
    exact h.threaded.cut p
  counted := by
    have hcount := h.counted.release.2
    have hzero : m.refOf p - 1 = 0 := by
      rw [refOf_eq hp, hlast]
      rfl
    rw [hzero] at hcount
    rw [nextOf_mempFree, refOf_mempFree]
    cases hnext : c.next with
    | none =>
      have hsame := update_nextOf hp
      rw [hnext] at hsame
      rw [hsame]
      exact hcount
    | some q => exact hcount.cut ((nextOf_eq hp).trans hnext)

end Owned

/-- What giving back a thread leaves: live elements keep all but their counts. -/
structure Recounted (m m' : PbufPool n) (l : List (Fin n)) : Prop where
  cell : ∀ a c', m'.cell a = some c' → ∃ c, m.cell a = some c ∧ c' = { c with ref := c'.ref }
  outside : ∀ a ∉ l, m'.cell a = m.cell a
  memory : m'.memory = m.memory

lemma Recounted.refl (m : PbufPool n) : Recounted m m [] := ⟨fun _ c' h => ⟨c', h, rfl⟩, fun _ _ => rfl, rfl⟩

/-- `pbuf_free` neither fails nor goes on for ever, and gives back the reference. -/
theorem Owned.freeLoop {p : Option (Fin n)} {l : List (Fin n)}
    (h : m.Owned (p.elim held (· ::ₘ held))) (hl : Linked m.nextOf p l) {fuel : ℕ}
    (hfuel : l.length ≤ fuel) (count : UInt8) :
    ∃ m' count', pbufFreeLoop fuel m p count = some (m', count') ∧ m'.Owned held ∧
      Recounted m m' l := by
  induction fuel generalizing m p l count with
  | zero =>
    obtain rfl : l = [] := List.eq_nil_of_length_eq_zero (Nat.le_zero.mp hfuel)
    cases hl
    exact ⟨m, count, by rw [pbufFreeLoop], h, Recounted.refl m⟩
  | succ fuel ih =>
    cases p with
    | none =>
      cases hl
      exact ⟨m, count, by rw [pbufFreeLoop], h, Recounted.refl m⟩
    | some p =>
      obtain ⟨l, rfl, htail⟩ := hl.eq_cons
      obtain ⟨c, hp⟩ := h.exists_cell (Multiset.mem_cons_self p held)
      have href := h.ref_ne_zero hp
      by_cases hlast : c.ref - 1 = 0
      · have hone : c.ref = 1 := by
          rw [← UInt8.sub_add_cancel c.ref 1, hlast]
          rfl
        have hnotMem : p ∉ l := (List.nodup_cons.mp hl.nodup).1
        have hrest : Linked (m.mempFree p).nextOf c.next l := by
          rw [nextOf_mempFree, ← nextOf_eq hp]
          exact htail.update hnotMem none
        obtain ⟨m', count', hloop, howned, hrecounted⟩ := ih (h.drop hp hone) hrest
          (by rw [List.length_cons] at hfuel; omega) (count + 1)
        refine ⟨m', count', ?_, howned, ?_, ?_, ?_⟩
        · rw [pbufFreeLoop, hp, Option.bind_eq_bind, Option.bind_some, if_neg href]
          simp only [hlast, if_true]
          exact hloop
        · intro a c' ha
          obtain ⟨c₁, hc₁, hc'⟩ := hrecounted.cell a c' ha
          have hap : a ≠ p := by
            rintro rfl
            rw [cell_mempFree] at hc₁
            cases hc₁
          rw [cell_mempFree_of_ne hap] at hc₁
          exact ⟨c₁, hc₁, hc'⟩
        · intro a ha
          rw [List.mem_cons, not_or] at ha
          rw [hrecounted.outside a ha.2, cell_mempFree_of_ne ha.1]
        · exact hrecounted.memory
      · refine ⟨m.set p { c with ref := c.ref - 1 }, count, ?_, h.release hp hlast, ?_, ?_, rfl⟩
        · rw [pbufFreeLoop, hp, Option.bind_eq_bind, Option.bind_some, if_neg href]
          simp only [hlast, if_false, Option.pure_def]
        · intro a c' ha
          by_cases hap : a = p
          · rw [hap, cell_set, Option.some.injEq] at ha
            refine ⟨c, by rw [hap, hp], ?_⟩
            rw [← ha]
          · rw [cell_set_of_ne hap] at ha
            exact ⟨c', ha, rfl⟩
        · intro a ha
          rw [List.mem_cons, not_or] at ha
          rw [cell_set_of_ne ha.1]

lemma Owned.free (h : m.Owned (p ::ₘ held)) {l : List (Fin n)} (hl : Linked m.nextOf (some p) l) :
    ∃ m' count, m.pbufFree p = some (m', count) ∧ m'.Owned held ∧ Recounted m m' l :=
  Owned.freeLoop (p := some p) h hl (Owned.thread_length_le hl) 0

/-- A thread that only its holder refers to is given back as a whole. -/
lemma pbufFreeLoop_sole {p : Option (Fin n)} {l : List (Fin n)} (hl : Linked m.nextOf p l)
    (hsole : ∀ a ∈ l, m.refOf a = 1) {fuel : ℕ} (hfuel : l.length ≤ fuel) (count : UInt8) :
    pbufFreeLoop fuel m p count =
      some ({ m with
          cell := fun a => if a ∈ l then none else m.cell a
          tab := l.reverse ++ m.tab }, count + UInt8.ofNat l.length) := by
  induction fuel generalizing m p l count with
  | zero =>
    obtain rfl : l = [] := List.eq_nil_of_length_eq_zero (Nat.le_zero.mp hfuel)
    cases hl
    simp [pbufFreeLoop]
  | succ fuel ih =>
    cases p with
    | none =>
      cases hl
      simp [pbufFreeLoop]
    | some p =>
      obtain ⟨l, rfl, htail⟩ := hl.eq_cons
      have hone := hsole p (List.mem_cons_self ..)
      obtain ⟨c, hp⟩ := Owned.cell_ne_none_of_ref (m := m) (p := p) (by omega)
      have href : c.ref = 1 := by
        rw [refOf_eq hp] at hone
        exact UInt8.toNat_inj.mp hone
      have hnotMem : p ∉ l := (List.nodup_cons.mp hl.nodup).1
      have hrest : Linked (m.mempFree p).nextOf c.next l := by
        rw [nextOf_mempFree, ← nextOf_eq hp]
        exact htail.update hnotMem none
      have hsole' : ∀ a ∈ l, (m.mempFree p).refOf a = 1 := by
        intro a ha
        rw [refOf_mempFree, Function.update_of_ne]
        · exact hsole a (List.mem_cons_of_mem p ha)
        · rintro rfl
          exact hnotMem ha
      have hloop := ih hrest hsole' (by rw [List.length_cons] at hfuel; omega) (count + 1)
      rw [pbufFreeLoop, hp, Option.bind_eq_bind, Option.bind_some, href]
      have hzero : (1 : UInt8) - 1 = 0 := rfl
      rw [if_neg (by decide)]
      simp only [hzero, if_true]
      rw [hloop]
      have hcell : (fun a => if a ∈ l then none else (m.mempFree p).cell a) =
          fun a => if a ∈ p :: l then none else m.cell a := by
        funext a
        by_cases hap : a = p
        · rw [hap, cell_mempFree, if_pos (List.mem_cons_self ..), ite_self]
        · rw [cell_mempFree_of_ne hap]
          simp [hap]
      have hcount : count + 1 + UInt8.ofNat l.length = count + UInt8.ofNat (p :: l).length := by
        rw [List.length_cons, Nat.add_comm, UInt8.ofNat_add, UInt8.add_assoc]
        rfl
      rw [hcell, hcount, List.reverse_cons, List.append_assoc]
      rfl

end PbufPool

end EthoSlip
