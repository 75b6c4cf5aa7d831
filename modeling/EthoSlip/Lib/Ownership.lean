import Mathlib.Tactic
import Mathlib.Data.List.Basic

/-!
# Ownership of allocated objects

Objects are numbered in the order of their allocation and known by the address at which they live.
The ledger is balanced when every object is in one place: at an address that somebody holds, among
the objects that were given away, or among those that were freed.
-/

namespace EthoSlip.Lib

structure Ledger (α : Type*) where
  live : α → Option Nat
  allocated : Nat
  freed : List Nat

namespace Ledger

variable {α : Type*} {L : Ledger α} {p : α} {held : List α} {given : List Nat} {id : Nat}

structure Balanced (L : Ledger α) (held : List α) (given : List Nat) : Prop where
  live_lt : ∀ p id, L.live p = some id → id < L.allocated
  alive : ∀ p ∈ held, (L.live p).isSome
  places : (held.filterMap L.live ++ given ++ L.freed).Perm (List.range L.allocated)

namespace Balanced

lemma nodup (h : L.Balanced held given) : (held.filterMap L.live ++ given ++ L.freed).Nodup :=
  h.places.nodup_iff.mpr List.nodup_range

/-- An object is held at one address only. -/
lemma not_mem (h : L.Balanced (p :: held) given) : p ∉ held := by
  intro hp
  obtain ⟨id, hid⟩ := Option.isSome_iff_exists.mp (h.alive p (by simp))
  have hnodup := h.nodup
  rw [List.filterMap_cons_some hid, List.cons_append, List.cons_append, List.nodup_cons] at hnodup
  apply hnodup.1
  have hmem : id ∈ held.filterMap L.live := List.mem_filterMap.mpr ⟨p, hp, hid⟩
  simp [hmem]

lemma not_mem_of_given (h : L.Balanced held given) (hp : L.live p = some id) (hid : id ∈ given) :
    p ∉ held := by
  intro hmem
  have hheld : id ∈ held.filterMap L.live := List.mem_filterMap.mpr ⟨p, hmem, hp⟩
  have hdisjoint := List.disjoint_of_nodup_append (List.nodup_append.mp h.nodup).1
  exact hdisjoint hheld hid

lemma not_mem_of_dead (h : L.Balanced held given) (hp : L.live p = none) : p ∉ held := by
  intro hmem
  have halive := h.alive p hmem
  rw [hp] at halive
  cases halive

lemma perm (h : L.Balanced held given) {held' : List α} (hperm : held.Perm held') :
    L.Balanced held' given where
  live_lt := h.live_lt
  alive q hq := h.alive q (hperm.mem_iff.mpr hq)
  places := by
    have hids := (hperm.filterMap L.live).symm
    exact ((hids.append_right given).append_right L.freed).trans h.places

lemma give (h : L.Balanced (p :: held) given) (hp : L.live p = some id) :
    L.Balanced held (given ++ [id]) where
  live_lt := h.live_lt
  alive q hq := h.alive q (List.mem_cons_of_mem p hq)
  places := by
    have hplaces := h.places
    rw [List.filterMap_cons_some hp] at hplaces
    rw [← List.append_assoc]
    exact ((List.perm_append_singleton id _).append_right L.freed).trans hplaces

end Balanced

variable [DecidableEq α]

def alloc (L : Ledger α) (p : α) : Ledger α :=
  { L with live := Function.update L.live p (some L.allocated), allocated := L.allocated + 1 }

/-- Frees object `id`, which lives at `p`. -/
def free (L : Ledger α) (p : α) (id : Nat) : Ledger α :=
  { L with live := Function.update L.live p none, freed := L.freed ++ [id] }

@[simp] lemma alloc_live_self : (L.alloc p).live p = some L.allocated := Function.update_self ..

@[simp] lemma free_live_self : (L.free p id).live p = none := Function.update_self ..

lemma alloc_live_of_ne {q : α} (h : q ≠ p) : (L.alloc p).live q = L.live q :=
  Function.update_of_ne h _ _

lemma free_live_of_ne {q : α} (h : q ≠ p) : (L.free p id).live q = L.live q :=
  Function.update_of_ne h _ _

lemma filterMap_alloc (h : p ∉ held) :
    held.filterMap (L.alloc p).live = held.filterMap L.live := by
  apply List.filterMap_congr
  intro q hq
  apply alloc_live_of_ne
  rintro rfl
  exact h hq

lemma filterMap_free (h : p ∉ held) :
    held.filterMap (L.free p id).live = held.filterMap L.live := by
  apply List.filterMap_congr
  intro q hq
  apply free_live_of_ne
  rintro rfl
  exact h hq

namespace Balanced

lemma alloc (h : L.Balanced held given) (hp : L.live p = none) :
    (L.alloc p).Balanced (p :: held) given where
  live_lt q id hq := by
    change id < L.allocated + 1
    by_cases hqp : q = p
    · rw [hqp, alloc_live_self, Option.some.injEq] at hq
      omega
    · rw [alloc_live_of_ne hqp] at hq
      have hlt := h.live_lt q id hq
      omega
  alive q hq := by
    by_cases hqp : q = p
    · simp [hqp]
    · rw [alloc_live_of_ne hqp]
      exact h.alive q ((List.mem_cons.mp hq).resolve_left hqp)
  places := by
    change ((p :: held).filterMap (L.alloc p).live ++ given ++ L.freed).Perm
      (List.range (L.allocated + 1))
    rw [List.filterMap_cons_some alloc_live_self, filterMap_alloc (h.not_mem_of_dead hp),
      List.range_succ, List.cons_append, List.cons_append]
    exact (h.places.cons _).trans (List.perm_append_singleton _ _).symm

lemma live_lt_free (h : L.Balanced held given) (q : α) (id' : Nat)
    (hq : (L.free p id).live q = some id') : id' < L.allocated := by
  by_cases hqp : q = p
  · rw [hqp, free_live_self] at hq
    cases hq
  · rw [free_live_of_ne hqp] at hq
    exact h.live_lt q id' hq

lemma alive_free (halive : ∀ q ∈ held, (L.live q).isSome) (hp : p ∉ held) (q : α) (hq : q ∈ held) :
    ((L.free p id).live q).isSome := by
  have hqp : q ≠ p := fun e => hp (e ▸ hq)
  rw [free_live_of_ne hqp]
  exact halive q hq

lemma free (h : L.Balanced (p :: held) given) (hp : L.live p = some id) :
    (L.free p id).Balanced held given where
  live_lt := h.live_lt_free
  alive := alive_free (fun q hq => h.alive q (List.mem_cons_of_mem p hq)) h.not_mem
  places := by
    have hplaces := h.places
    rw [List.filterMap_cons_some hp] at hplaces
    rw [filterMap_free h.not_mem]
    change (_ ++ (L.freed ++ [id])).Perm _
    rw [← List.append_assoc]
    exact (List.perm_append_singleton id _).trans hplaces

lemma freeGiven (h : L.Balanced held given) (hp : L.live p = some id) (hid : id ∈ given) :
    (L.free p id).Balanced held (given.erase id) where
  live_lt := h.live_lt_free
  alive := alive_free h.alive (h.not_mem_of_given hp hid)
  places := by
    have hperm := List.perm_cons_erase hid
    apply List.Perm.trans _ h.places
    rw [filterMap_free (h.not_mem_of_given hp hid)]
    change (_ ++ (L.freed ++ [id])).Perm _
    apply List.perm_iff_count.mpr
    intro a
    have hcount := hperm.count_eq a
    rw [← List.singleton_append] at hcount
    simp only [List.count_append] at hcount ⊢
    omega

end Balanced

end Ledger

end EthoSlip.Lib
