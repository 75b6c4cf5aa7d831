import Mathlib.Tactic
import Mathlib.Data.List.Basic

/-!
# Circular buffers

A buffer of `n` slots with a front and a rear index, which holds the elements from the front up to
the rear. One slot stays free, so that equal indices mean that it is empty.
-/

namespace EthoSlip.Lib

def wrap (n i : Nat) : Nat := if i < n then i else i - n

structure Ring (n : Nat) (α : Type*) where
  slot : Nat → α
  front : Nat
  rear : Nat
  front_lt : front < n
  rear_lt : rear < n

namespace Ring

variable {n : Nat} {α : Type*} (r : Ring n α)

def length : Nat := if r.front ≤ r.rear then r.rear - r.front else r.rear + n - r.front

/-- The elements, the oldest one first. -/
def contents : List α := (List.range r.length).map (fun k => r.slot (wrap n (r.front + k)))

def store (a : α) : Ring n α := { r with slot := Function.update r.slot r.rear a }

lemma wrap_lt {i : Nat} (h : i < n) : wrap n (i + 1) < n := by
  unfold wrap
  split_ifs <;> omega

def advanceRear : Ring n α := { r with rear := wrap n (r.rear + 1), rear_lt := wrap_lt r.rear_lt }

def advanceFront : Ring n α :=
  { r with front := wrap n (r.front + 1), front_lt := wrap_lt r.front_lt }

def clear : Ring n α :=
  { r with
    front := 0
    rear := 0
    front_lt := Nat.zero_lt_of_lt r.front_lt
    rear_lt := Nat.zero_lt_of_lt r.rear_lt }

@[simp] lemma length_contents : r.contents.length = r.length := by simp [contents]

lemma length_lt : r.length < n := by
  have hfront := r.front_lt
  have hrear := r.rear_lt
  unfold length
  split_ifs <;> omega

lemma length_eq_pred : r.length = n - 1 ↔ wrap n (r.rear + 1) = r.front := by
  have hfront := r.front_lt
  have hrear := r.rear_lt
  unfold length wrap
  split_ifs <;> omega

lemma length_advanceRear (h : wrap n (r.rear + 1) ≠ r.front) :
    r.advanceRear.length = r.length + 1 := by
  have hfront := r.front_lt
  have hrear := r.rear_lt
  unfold wrap at h
  simp only [length, advanceRear, wrap]
  split_ifs at h ⊢ <;> omega

lemma length_advanceFront (h : r.front ≠ r.rear) : r.length = r.advanceFront.length + 1 := by
  have hfront := r.front_lt
  have hrear := r.rear_lt
  simp only [length, advanceFront, wrap]
  split_ifs <;> omega

lemma wrap_length : wrap n (r.front + r.length) = r.rear := by
  have hfront := r.front_lt
  have hrear := r.rear_lt
  unfold length wrap
  split_ifs <;> omega

lemma wrap_ne_rear {k : Nat} (hk : k < r.length) : wrap n (r.front + k) ≠ r.rear := by
  have hfront := r.front_lt
  have hrear := r.rear_lt
  unfold length at hk
  unfold wrap
  split_ifs at hk ⊢ <;> omega

lemma wrap_advanceFront {k : Nat} (hk : k + 1 < n) :
    wrap n (r.advanceFront.front + k) = wrap n (r.front + (k + 1)) := by
  have hfront := r.front_lt
  simp only [advanceFront, wrap]
  split_ifs <;> omega

lemma contents_store (a : α) : (r.store a).contents = r.contents := by
  have hlength : (r.store a).length = r.length := rfl
  rw [contents, contents, hlength]
  apply List.map_congr_left
  intro k hk
  have hne : wrap n (r.front + k) ≠ r.rear := r.wrap_ne_rear (List.mem_range.mp hk)
  exact Function.update_of_ne hne _ _

lemma contents_advanceRear (h : wrap n (r.rear + 1) ≠ r.front) :
    r.advanceRear.contents = r.contents ++ [r.slot r.rear] := by
  rw [contents, r.length_advanceRear h, List.range_succ, List.map_append, List.map_singleton]
  change _ ++ [r.slot (wrap n (r.front + r.length))] = _
  rw [wrap_length]
  rfl

lemma contents_advanceFront (h : r.front ≠ r.rear) :
    r.contents = r.slot r.front :: r.advanceFront.contents := by
  have hlength := r.length_advanceFront h
  have hfront : wrap n (r.front + 0) = r.front := if_pos r.front_lt
  rw [contents, hlength, List.range_succ_eq_map, List.map_cons, hfront, List.map_map]
  congr 1
  apply List.map_congr_left
  intro k hk
  have hk' : k < r.advanceFront.length := List.mem_range.mp hk
  have hlt := r.length_lt
  have hwrap := r.wrap_advanceFront (k := k) (by omega)
  exact congrArg r.slot hwrap.symm

end Ring

end EthoSlip.Lib
